import EzvizBridge.Transport.CodecDetection
import EzvizBridge.Transport.RtpTs
import EzvizBridge.Transport.TsMuxRoundTrip

/-!
# From RTP items to access units to muxer calls

Between the items of the video half and the muxer, an access unit passes through the open-unit
buffer, the hold queue and a muxer that is created late. What comes out can be said without any of
these. The items are cut into access units (`cut`): a unit closes when an item of another timestamp
arrives and behind an item whose marker is set. The units before the first keyframe are dropped
(`fromKeyframe`), and the rest are stamped from the running signed difference of their RTP
timestamps (`stamped`).

`Account` ties the two together. In every state the units closed so far, from the first keyframe
on, are the video calls already made followed by the hold queue, in order; everything else the
state holds is determined by them. Each method extends the account by what it closes:
`releaseHeld_account`, `flushUnit_account`, `audioPacket_account`, and for one item of the video
half `feedItem_account`.
-/

namespace EzvizBridge

/-- An access unit with its RTP timestamp. -/
abbrev AccessUnit := UInt32 × Bytes

/-! ### Cutting -/

/-- One item: the units it closes, and the unit that is open behind it. -/
def cutItem (current : Option AccessUnit) : RtpOutput → List AccessUnit × Option AccessUnit
  | .video timestamp marker data =>
    let differs := current.any fun unit => unit.1 ≠ timestamp
    let closed := if differs then current.toList else []
    let current := if differs then none else current
    let current := if data = [] then current
      else some (timestamp, (current.map Prod.snd).getD [] ++ data)
    if marker then (closed ++ current.toList, none) else (closed, current)
  | .other _ _ _ => ([], current)

/-- The units that the items close, and the unit that is open behind them. -/
def cut (current : Option AccessUnit) : List RtpOutput → List AccessUnit × Option AccessUnit
  | [] => ([], current)
  | item :: items =>
    let (closed, current) := cutItem current item
    let (more, current) := cut current items
    (closed ++ more, current)

/-- The access units of a session: those closed by its items, and the one left open. -/
def unitsOf (items : List RtpOutput) : List AccessUnit :=
  (cut none items).1 ++ (cut none items).2.toList

/-- Cutting goes on with the unit that is open. -/
theorem cut_append (current : Option AccessUnit) (items items' : List RtpOutput) :
    cut current (items ++ items') =
      ((cut current items).1 ++ (cut (cut current items).2 items').1,
        (cut (cut current items).2 items').2) := by
  induction items generalizing current with
  | nil => rfl
  | cons item items ih =>
    simp only [List.cons_append, cut, ih, List.append_assoc]

theorem cut_singleton (current : Option AccessUnit) (item : RtpOutput) :
    cut current [item] = cutItem current item := by
  simp only [cut, List.append_nil]

/-- What happens to a stream, in order: an access unit closes, or a packet of another payload type
arrives. -/
abbrev StreamEvent := AccessUnit ⊕ OtherPacket

/-- The events of one item. -/
def itemEvents (current : Option AccessUnit) : RtpOutput → List StreamEvent
  | .video timestamp marker data => (cutItem current (.video timestamp marker data)).1.map .inl
  | .other payloadType timestamp payload => [.inr ⟨payloadType, timestamp, payload⟩]

/-- The events of the items. -/
def events (current : Option AccessUnit) : List RtpOutput → List StreamEvent
  | [] => []
  | item :: items => itemEvents current item ++ events (cutItem current item).2 items

/-- The access units that have closed. -/
def closedUnits (es : List StreamEvent) : List AccessUnit := es.filterMap Sum.getLeft?

/-- The units of the events, one list after the other. -/
theorem closedUnits_append (es es' : List StreamEvent) :
    closedUnits (es ++ es') = closedUnits es ++ closedUnits es' :=
  List.filterMap_append

theorem closedUnits_map_inl (closed : List AccessUnit) :
    closedUnits (closed.map .inl) = closed := by
  rw [closedUnits, List.filterMap_map]
  exact List.filterMap_some

theorem closedUnits_inr (packet : OtherPacket) : closedUnits [.inr packet] = [] := rfl

/-- The events close the units that are cut. -/
theorem closedUnits_events (current : Option AccessUnit) (items : List RtpOutput) :
    closedUnits (events current items) = (cut current items).1 := by
  induction items generalizing current with
  | nil => rfl
  | cons item items ih =>
    rw [events, closedUnits_append, ih, cut]
    cases item with
    | video timestamp marker data => rw [itemEvents, closedUnits_map_inl]
    | other payloadType timestamp payload => rfl

/-- One more item. -/
theorem events_concat (current : Option AccessUnit) (items : List RtpOutput) (item : RtpOutput) :
    events current (items ++ [item]) =
      events current items ++ itemEvents (cut current items).2 item := by
  induction items generalizing current with
  | nil => exact List.append_nil _
  | cons head items ih => rw [List.cons_append, events, ih, events, List.append_assoc, cut]

/-! ### Stamping -/

/-- The sum of the signed 32-bit differences of successive timestamps. -/
def elapsed : List UInt32 → ℤ
  | last :: timestamp :: rest => signedStep last timestamp + elapsed (timestamp :: rest)
  | _ => 0

/-- The clock that has advanced over the given timestamps. -/
def clockOf (stamps : List UInt32) : Clock where
  last := stamps.getLast?
  elapsed := elapsed stamps

/-- One more timestamp. -/
theorem elapsed_concat (stamps : List UInt32) (last timestamp : UInt32) :
    elapsed (stamps ++ [last] ++ [timestamp]) =
      elapsed (stamps ++ [last]) + signedStep last timestamp := by
  induction stamps with
  | nil => simp [elapsed]
  | cons first stamps ih =>
    cases stamps with
    | nil => simp [elapsed]
    | cons second stamps =>
      simp only [List.cons_append, elapsed] at ih ⊢
      rw [ih, add_assoc]

/-- The clock advances by one timestamp. -/
theorem clockOf_advance (stamps : List UInt32) (timestamp : UInt32) :
    (clockOf stamps).advance timestamp =
      (elapsed (stamps ++ [timestamp]), clockOf (stamps ++ [timestamp])) := by
  rcases List.eq_nil_or_concat stamps with rfl | ⟨front, last, rfl⟩
  · rfl
  · have hsum := elapsed_concat front last timestamp
    simpa [Clock.advance, clockOf] using hsum.symm

/-- The units with their time stamps: one second, and the sum of the steps up to the unit. -/
def stamped (codec : VideoCodec) (units : List AccessUnit) : List HeldUnit :=
  units.mapIdx fun i unit =>
    { pts := RtpToTs.ptsBase + elapsed ((units.map Prod.fst).take (i + 1))
      keyframe := isKeyframe codec unit.2
      data := unit.2 }

/-- One more unit is stamped with the timestamps up to its own. -/
theorem stamped_concat (codec : VideoCodec) (units : List AccessUnit) (unit : AccessUnit) :
    stamped codec (units ++ [unit]) = stamped codec units ++
      [{ pts := RtpToTs.ptsBase + elapsed (units.map Prod.fst ++ [unit.1])
         keyframe := isKeyframe codec unit.2
         data := unit.2 }] := by
  unfold stamped
  rw [List.mapIdx_concat]
  congr 1
  -- the units of before are stamped as before
  · refine List.mapIdx_eq_mapIdx_iff.2 fun i hi => ?_
    have htake : ((units ++ [unit]).map Prod.fst).take (i + 1) =
        (units.map Prod.fst).take (i + 1) := by
      rw [List.map_append, List.take_append_of_le_length (by rw [List.length_map]; omega)]
    rw [htake]
  · have htake : ((units ++ [unit]).map Prod.fst).take (units.length + 1) =
        units.map Prod.fst ++ [unit.1] := by
      rw [List.take_of_length_le (by simp), List.map_append, List.map_singleton]
    rw [htake]

/-- A key picture found in a unit is found behind any prefix. -/
theorem isKeyframe_append_right {codec : VideoCodec} {unit : Bytes}
    (h : isKeyframe codec unit = true) (front : Bytes) :
    isKeyframe codec (front ++ unit) = true := by
  induction front with
  | nil => exact h
  | cons byte front ih => rw [List.cons_append, isKeyframe, ih, Bool.or_true]

/-- The units from the first keyframe on. -/
def fromKeyframe (codec : VideoCodec) (units : List AccessUnit) : List AccessUnit :=
  units.dropWhile fun unit => !isKeyframe codec unit.2

/-- One more unit, which is taken from the first keyframe on. -/
theorem fromKeyframe_concat (codec : VideoCodec) (units : List AccessUnit) (unit : AccessUnit) :
    fromKeyframe codec (units ++ [unit]) =
      if fromKeyframe codec units = [] ∧ isKeyframe codec unit.2 = false then []
      else fromKeyframe codec units ++ [unit] := by
  unfold fromKeyframe
  rw [List.dropWhile_append]
  by_cases h : units.dropWhile (fun unit => !isKeyframe codec unit.2) = []
  · rw [h]
    by_cases hkey : isKeyframe codec unit.2 <;> simp [hkey]
  · simp [h]

/-! ### What the muxer has been asked to write -/

/-- A call that writes video. -/
def TsMuxer.Call.isVideo : TsMuxer.Call → Bool
  | .video _ _ _ => true
  | _ => false

/-- A call that writes audio. -/
def TsMuxer.Call.isAudio : TsMuxer.Call → Bool
  | .audio _ _ => true
  | _ => false

namespace TsMuxer

/-- The calls of a muxer, one list after the other. -/
theorem run_append (s : TsMuxer) (calls calls' : List Call) :
    s.run (calls ++ calls') =
      (((s.run calls).1.run calls').1, (s.run calls).2 ++ ((s.run calls).1.run calls').2) := by
  induction calls generalizing s with
  | nil => rfl
  | cons c calls ih => simp only [List.cons_append, run, ih, List.append_assoc]

end TsMuxer

namespace RtpToTs

/-- The frames of a release change nothing about the order of the units. -/
theorem filter_isVideo_interleave (held : List HeldUnit) (frames : List (ℤ × Bytes)) :
    (interleave held frames).filter TsMuxer.Call.isVideo = held.map videoCall := by
  have haudio : ∀ frames : List (ℤ × Bytes),
      (frames.map audioCall).filter TsMuxer.Call.isVideo = [] := by
    intro frames
    rw [List.filter_eq_nil_iff]
    intro c hc
    obtain ⟨frame, -, rfl⟩ := List.mem_map.1 hc
    simp [audioCall, TsMuxer.Call.isVideo]
  -- on the units
  induction held generalizing frames with
  | nil => exact haudio frames
  | cons unit held ih =>
    rw [interleave, List.filter_append, haudio, List.nil_append, List.filter_cons_of_pos rfl, ih,
      List.map_cons]

/-- A release makes video calls for the units and audio calls for the frames, and no other. -/
theorem mem_interleave {held : List HeldUnit} {frames : List (ℤ × Bytes)} {c : TsMuxer.Call}
    (h : c ∈ interleave held frames) :
    (∃ unit ∈ held, c = videoCall unit) ∨ ∃ frame ∈ frames, c = audioCall frame := by
  -- on the units; the frames before each of them are taken off
  induction held generalizing frames with
  | nil =>
    obtain ⟨frame, hframe, rfl⟩ := List.mem_map.1 h
    exact Or.inr ⟨frame, hframe, rfl⟩
  | cons unit held ih =>
    rw [interleave, List.mem_append, List.mem_cons] at h
    rcases h with h | rfl | h
    · obtain ⟨frame, hframe, rfl⟩ := List.mem_map.1 h
      exact Or.inr ⟨frame, (List.takeWhile_sublist _).subset hframe, rfl⟩
    · exact Or.inl ⟨unit, List.mem_cons_self, rfl⟩
    · rcases ih h with ⟨unit', hunit, rfl⟩ | ⟨frame, hframe, rfl⟩
      · exact Or.inl ⟨unit', List.mem_cons_of_mem _ hunit, rfl⟩
      · exact Or.inr ⟨frame, (List.dropWhile_sublist _).subset hframe, rfl⟩

/-- The calls of a release are allowed once the track is confirmed, or if there are no frames. -/
theorem interleave_allowed {held : List HeldUnit} {frames : List (ℤ × Bytes)} {probe : Probe}
    (hframes : frames ≠ [] → probe = .confirmed) :
    ∀ c ∈ interleave held frames, c ≠ .enableAudio ∧ (c.isAudio = true → probe = .confirmed) := by
  intro c hc
  rcases mem_interleave hc with ⟨unit, -, rfl⟩ | ⟨frame, hframe, rfl⟩
  · exact ⟨by simp [videoCall], by simp [videoCall, TsMuxer.Call.isAudio]⟩
  · exact ⟨by simp [audioCall], fun _ => hframes (List.ne_nil_of_mem hframe)⟩

/-- The bytes written so far are those of one muxer, created once the audio question was settled,
with the audio stream declared exactly when the answer is yes; it has made the given calls, and
audio calls among them only if the stream is declared. -/
def Written (codec : VideoCodec) (calls : List TsMuxer.Call) (out : Bytes) (s : RtpToTs) : Prop :=
  (s.muxer = none ∧ calls = [] ∧ out = []) ∨
  ∃ muxer, s.muxer = some muxer ∧ s.audio.probe ≠ .undecided ∧
    (newMuxer codec (s.audio.probe = .confirmed)).run calls = (muxer, out) ∧
    ∀ c ∈ calls, c ≠ .enableAudio ∧ (c.isAudio = true → s.audio.probe = .confirmed)

/-- More calls of the same muxer: what `release_held` and `audio_packet` do to it. -/
theorem Written.more {codec : VideoCodec} {calls more : List TsMuxer.Call} {out : Bytes}
    {s : RtpToTs} (h : Written codec calls out s) (hdecided : s.audio.probe ≠ .undecided)
    (hmore : ∀ c ∈ more, c ≠ .enableAudio ∧ (c.isAudio = true → s.audio.probe = .confirmed))
    (s' : RtpToTs) (hprobe : s'.audio.probe = s.audio.probe)
    (hmuxer : s'.muxer =
      some ((s.muxer.getD (newMuxer codec (s.audio.probe = .confirmed))).run more).1) :
    Written codec (calls ++ more)
      (out ++ ((s.muxer.getD (newMuxer codec (s.audio.probe = .confirmed))).run more).2) s' := by
  refine Or.inr ⟨_, hmuxer, hprobe ▸ hdecided, ?_, ?_⟩
  · rw [hprobe, TsMuxer.run_append]
    -- the muxer of before, or a new one
    obtain ⟨hnone, rfl, rfl⟩ | ⟨muxer, hsome, -, hrun, -⟩ := h
    · rw [hnone]
      rfl
    · rw [hsome, hrun]
      rfl
  · rw [hprobe]
    -- the calls of before, and the new ones
    intro c hc
    rcases List.mem_append.1 hc with hc | hc
    · obtain ⟨-, rfl, -⟩ | ⟨-, -, -, -, hcalls⟩ := h
      · cases hc
      · exact hcalls c hc
    · exact hmore c hc

/-- The calls made so far depend on the state only through the muxer and the answer. -/
theorem Written.congr {codec : VideoCodec} {calls : List TsMuxer.Call} {out : Bytes}
    {s s' : RtpToTs} (h : Written codec calls out s) (hmuxer : s'.muxer = s.muxer)
    (hprobe : s.audio.probe ≠ .undecided → s'.audio.probe = s.audio.probe) :
    Written codec calls out s' := by
  obtain ⟨hnone, hcalls, hout⟩ | ⟨muxer, hsome, hdecided, hrun, hcalls⟩ := h
  · exact Or.inl ⟨hmuxer.trans hnone, hcalls, hout⟩
  · have heq := hprobe hdecided
    exact Or.inr ⟨muxer, hmuxer.trans hsome, heq ▸ hdecided, heq ▸ hrun, heq ▸ hcalls⟩

/-! ### The account -/

/-- The units closed so far, from the first keyframe on, are those the muxer has been asked to
write and behind them the hold queue; they determine whether and where the clock runs, and once
the audio question is settled nothing is held. -/
structure Account (codec : VideoCodec) (units : List AccessUnit) (out : Bytes) (s : RtpToTs) :
    Prop where
  codec_eq : s.video.codec = some codec
  started_iff : s.started = true ↔ units ≠ []
  clock_eq : s.started = true → s.clock = clockOf (units.map Prod.fst)
  handed : ∃ calls, Written codec calls out s ∧
    calls.filter TsMuxer.Call.isVideo ++ s.held.map videoCall =
      (stamped codec units).map videoCall
  drained : s.audio.probe ≠ .undecided → s.held = []

variable {codec : VideoCodec} {units : List AccessUnit} {out : Bytes} {s : RtpToTs}

/-- Before the first keyframe nothing is held. -/
theorem Account.held_eq_nil (h : Account codec units out s) (hs : s.started = false) :
    s.held = [] := by
  have hunits : units = [] := by
    by_contra hne
    rw [h.started_iff.2 hne] at hs
    cases hs
  obtain ⟨calls, -, hcalls⟩ := h.handed
  rw [hunits] at hcalls
  exact List.map_eq_nil_iff.1 (List.append_eq_nil_iff.1 hcalls).2

/-- **A release** hands over the hold queue, or leaves everything as it is while the question is
open or the stream has not started. -/
theorem releaseHeld_account {frames : List (ℤ × Bytes)} (hcodec : s.video.codec = some codec)
    (hstarted : s.started = true ↔ units ≠ [])
    (hclock : s.started = true → s.clock = clockOf (units.map Prod.fst))
    (hhanded : ∃ calls, Written codec calls out s ∧
      calls.filter TsMuxer.Call.isVideo ++ s.held.map videoCall =
        (stamped codec units).map videoCall)
    (hframes : frames ≠ [] → s.audio.probe = .confirmed) :
    Account codec units (out ++ (s.releaseHeld frames).1) (s.releaseHeld frames).2 := by
  obtain ⟨calls, hwritten, hcalls⟩ := hhanded
  unfold releaseHeld
  simp only [hcodec]
  -- nothing is released before the start, when there is nothing to release
  split
  · next hskip =>
    refine ⟨hcodec, hstarted, hclock, ⟨calls, by simpa using hwritten, hcalls⟩, fun hdecided => ?_⟩
    have hfalse : s.started = false := by
      rcases hskip with h | h
      · exact absurd h hdecided
      · exact h
    have hunits : units = [] := by
      by_contra hne
      rw [hstarted.2 hne] at hfalse
      cases hfalse
    rw [hunits] at hcalls
    exact List.map_eq_nil_iff.1 (List.append_eq_nil_iff.1 hcalls).2
  -- the units and the frames are handed to the muxer
  · next hgo =>
    rw [not_or] at hgo
    refine ⟨hcodec, hstarted, hclock, ⟨calls ++ interleave s.held frames, ?_, ?_⟩, fun _ => rfl⟩
    · exact hwritten.more hgo.1 (interleave_allowed hframes) _ rfl rfl
    · rw [List.filter_append, filter_isVideo_interleave, List.map_nil, List.append_nil, hcalls]

/-- A release moves the muxer and the hold queue, and nothing else. -/
theorem releaseHeld_frame (s : RtpToTs) (frames : List (ℤ × Bytes)) :
    (s.releaseHeld frames).2 = { s with
      muxer := (s.releaseHeld frames).2.muxer
      held := (s.releaseHeld frames).2.held } := by
  unfold releaseHeld
  split
  · rfl
  · split <;> rfl

/-- The bound on the hold queue answers the audio question if it is open, and nothing else. -/
theorem boundHeld_frame (s : RtpToTs) (pts : ℤ) :
    s.boundHeld pts = { s with audio := (s.boundHeld pts).audio } ∧
    (s.audio.probe ≠ .undecided → (s.boundHeld pts).audio.probe = s.audio.probe) := by
  unfold boundHeld
  dsimp only
  split
  · next h => exact ⟨rfl, fun hdecided => absurd h.1 hdecided⟩
  · exact ⟨rfl, fun _ => rfl⟩

/-- Closing a unit leaves the video side alone. An open unit is taken out of the buffer, and without
one nothing happens. -/
theorem flushUnit_frame (s : RtpToTs) :
    (s.flushUnit).2.video = s.video ∧
    ((s.unitTimestamp = none ∧ (s.flushUnit).2 = s) ∨
      ((s.flushUnit).2.unitTimestamp = none ∧ (s.flushUnit).2.unit = [])) := by
  -- the ways through the function, in the order of the source
  unfold flushUnit
  split
  · next hnone => exact ⟨rfl, Or.inl ⟨hnone, rfl⟩⟩
  · dsimp only
    split
    · exact ⟨rfl, Or.inr ⟨rfl, rfl⟩⟩
    · split
      · exact ⟨rfl, Or.inr ⟨rfl, rfl⟩⟩
      · -- neither the release nor the bound touches the buffer
        rw [releaseHeld_frame, (boundHeld_frame _ _).1]
        exact ⟨rfl, Or.inr ⟨rfl, rfl⟩⟩

/-! ### Closing a unit -/

/-- The open-unit buffer holds `current`. -/
def Holds (current : Option AccessUnit) (s : RtpToTs) : Prop :=
  current = s.unitTimestamp.map (fun timestamp => (timestamp, s.unit)) ∧
    (s.unitTimestamp = none → s.unit = [])

/-- The account does not speak of the buffer. -/
theorem Account.emptied (h : Account codec units out s) :
    Account codec units out { s with unitTimestamp := none, unit := [] } :=
  ⟨h.codec_eq, h.started_iff, h.clock_eq, h.handed, h.drained⟩

/-- The open unit is not in the account yet. -/
theorem Account.buffered (h : Account codec units out s) (timestamp : UInt32) (unit : Bytes) :
    Account codec units out { s with unitTimestamp := some timestamp, unit := unit } :=
  ⟨h.codec_eq, h.started_iff, h.clock_eq, h.handed, h.drained⟩

/-- The clock that stamps the next unit has advanced over the accepted ones: before the first
keyframe it is a new one. -/
theorem Account.clock (h : Account codec units out s) :
    (if s.started then s.clock else {}) = clockOf (units.map Prod.fst) := by
  cases hs : s.started with
  | true => exact h.clock_eq hs
  | false =>
    have hunits : units = [] := by
      by_contra hne
      rw [h.started_iff.2 hne] at hs
      cases hs
    rw [hunits]
    rfl

/-- The state in which a unit has been accepted, before the bounds and the release. -/
def accepted (s : RtpToTs) (codec : VideoCodec) (clock : Clock) (timestamp : UInt32)
    (data : Bytes) : RtpToTs :=
  { s with
    clock := (clock.advance timestamp).2
    started := true
    lastPts := ptsBase + (clock.advance timestamp).1
    held := s.held ++
      [⟨ptsBase + (clock.advance timestamp).1, isKeyframe codec data, data⟩] }

/-- Accepting a unit appends it to the account. -/
theorem accepted_account (h : Account codec units out s) (timestamp : UInt32) (data : Bytes)
    (pts : ℤ) :
    Account codec (units ++ [(timestamp, data)])
      (out ++ (((s.accepted codec (clockOf (units.map Prod.fst)) timestamp data).boundHeld
        pts).releaseHeld []).1)
      (((s.accepted codec (clockOf (units.map Prod.fst)) timestamp data).boundHeld
        pts).releaseHeld []).2 := by
  set t := s.accepted codec (clockOf (units.map Prod.fst)) timestamp data with ht
  have hclock : t.clock = clockOf (units.map Prod.fst ++ [timestamp]) := by
    rw [ht, accepted, clockOf_advance]
  have hheld : t.held = s.held ++ [⟨ptsBase + elapsed (units.map Prod.fst ++ [timestamp]),
      isKeyframe codec data, data⟩] := by
    rw [ht, accepted, clockOf_advance]
  obtain ⟨hframe, hprobe⟩ := boundHeld_frame t pts
  obtain ⟨calls, hwritten, hcalls⟩ := h.handed
  -- the unit is held behind the others, with its time stamp
  refine releaseHeld_account ?_ ?_ ?_ ⟨calls, ?_, ?_⟩ (fun hne => absurd rfl hne)
  · rw [hframe]
    exact h.codec_eq
  · rw [hframe]
    exact ⟨fun _ => by simp, fun _ => rfl⟩
  · rw [hframe, List.map_append, List.map_singleton]
    exact fun _ => hclock
  · refine hwritten.congr ?_ hprobe
    rw [hframe]
    rfl
  · rw [hframe, stamped_concat, List.map_append, hheld, List.map_append, ← List.append_assoc,
      hcalls]

/-- Closing the open unit leaves the buffer empty. -/
theorem flushUnit_holds {current : Option AccessUnit} (h : Holds current s) :
    Holds none (s.flushUnit).2 := by
  obtain ⟨-, hempty⟩ := h
  obtain ⟨-, ⟨hstamp, hsame⟩ | ⟨hstamp, hunit⟩⟩ := s.flushUnit_frame
  · rw [hsame]
    exact ⟨by rw [hstamp]; rfl, hempty⟩
  · exact ⟨by rw [hstamp]; rfl, fun _ => hunit⟩

/-- **Closing a unit.** What is in the buffer joins the account: it is dropped before the first
keyframe, and otherwise queued with its time stamp. -/
theorem flushUnit_account {closed : List AccessUnit} {current : Option AccessUnit}
    (h : Account codec (fromKeyframe codec closed) out s) (hholds : Holds current s) :
    Account codec (fromKeyframe codec (closed ++ current.toList)) (out ++ (s.flushUnit).1)
      (s.flushUnit).2 := by
  obtain ⟨rfl, -⟩ := hholds
  unfold flushUnit
  cases ht : s.unitTimestamp with
  -- no unit is open
  | none =>
    rw [Option.map_none, Option.toList_none, List.append_nil, List.append_nil]
    exact h
  | some timestamp =>
    simp only [Option.map_some, Option.toList_some, h.codec_eq, fromKeyframe_concat]
    have hiff : s.started = false ↔ fromKeyframe codec closed = [] := by
      rw [← Bool.not_eq_true, h.started_iff, not_not]
    -- a unit before the first keyframe is dropped
    by_cases hskip : fromKeyframe codec closed = [] ∧ isKeyframe codec s.unit = false
    · have hskip' : s.started = false ∧ isKeyframe codec s.unit = false :=
        ⟨hiff.2 hskip.1, hskip.2⟩
      rw [hskip.1] at h
      simp only [if_pos hskip, if_pos hskip', List.append_nil]
      exact h.emptied
    · have hkeep : ¬ (s.started = false ∧ isKeyframe codec s.unit = false) :=
        fun h' => hskip ⟨hiff.1 h'.1, h'.2⟩
      simp only [if_neg hskip, if_neg hkeep, h.clock]
      exact accepted_account h.emptied timestamp s.unit
        (ptsBase + ((clockOf ((fromKeyframe codec closed).map Prod.fst)).advance timestamp).1)

/-! ### An audio packet -/

/-- A state that differs in its audio track, with the same answer or a first one, has the same
account as long as nothing is held back from a settled question. -/
theorem Account.withAudio (h : Account codec units out s) (audio : AudioTrack)
    (hprobe : s.audio.probe ≠ .undecided → audio.probe = s.audio.probe)
    (hdrained : audio.probe ≠ .undecided → s.held = []) :
    Account codec units out { s with audio := audio } := by
  obtain ⟨calls, hwritten, hcalls⟩ := h.handed
  exact ⟨h.codec_eq, h.started_iff, h.clock_eq,
    ⟨calls, hwritten.congr rfl hprobe, hcalls⟩, hdrained⟩

/-- The calls for the frames of a packet are allowed: only a confirmed track has any. -/
theorem frames_allowed (track : AudioTrack) (payloadType : UInt8) (timestamp : UInt32)
    (payload : Bytes) (videoPts : ℤ) :
    ∀ c ∈ (track.frames payloadType timestamp payload videoPts).1.map audioCall,
      c ≠ .enableAudio ∧ (c.isAudio = true → track.probe = .confirmed) := by
  intro c hc
  obtain ⟨frame, hframe, rfl⟩ := List.mem_map.1 hc
  exact ⟨by simp [audioCall],
    fun _ => AudioTrack.confirmed_of_frames (List.ne_nil_of_mem hframe)⟩

/-- Frames written behind the video that has been released. -/
theorem frames_account (h : Account codec units out s) (payloadType : UInt8) (timestamp : UInt32)
    (payload : Bytes) :
    let frames := s.audio.frames payloadType timestamp payload s.lastPts
    Account codec units out { s with audio := frames.2 } ∧
    ∀ muxer, s.muxer = some muxer →
      Account codec units (out ++ (muxer.run (frames.1.map audioCall)).2)
        { s with audio := frames.2, muxer := some (muxer.run (frames.1.map audioCall)).1 } := by
  intro frames
  have hprobe : frames.2.probe = s.audio.probe :=
    s.audio.frames_probe payloadType timestamp payload s.lastPts
  refine ⟨h.withAudio frames.2 (fun _ => hprobe) (fun hne => h.drained (hprobe ▸ hne)), ?_⟩
  intro muxer hmuxer
  obtain ⟨calls, hwritten, hcalls⟩ := h.handed
  -- a muxer exists, so the question is settled and the calls so far are its own
  have hdecided : s.audio.probe ≠ .undecided := by
    obtain ⟨hnone, -⟩ | ⟨-, -, hdecided, -⟩ := hwritten
    · rw [hnone] at hmuxer
      cases hmuxer
    · exact hdecided
  have hmore := hwritten.more hdecided
    (frames_allowed s.audio payloadType timestamp payload s.lastPts)
    { s with audio := frames.2, muxer := some (muxer.run (frames.1.map audioCall)).1 } hprobe
    (by rw [hmuxer]; rfl)
  rw [hmuxer] at hmore
  refine ⟨h.codec_eq, h.started_iff, h.clock_eq, ⟨_, hmore, ?_⟩, fun _ => h.drained hdecided⟩
  have hnone : (frames.1.map audioCall).filter TsMuxer.Call.isVideo = [] :=
    filter_isVideo_interleave [] frames.1
  rw [List.filter_append, hnone, List.append_nil]
  exact hcalls

/-- **An audio packet** leaves the units as they are. -/
theorem audioPacket_account (h : Account codec units out s) (payloadType : UInt8)
    (timestamp : UInt32) (payload : Bytes) :
    Account codec units (out ++ (s.audioPacket payloadType timestamp payload).1)
      (s.audioPacket payloadType timestamp payload).2 := by
  set detected := s.audio.detect payloadType timestamp payload s.lastPts with hdetected
  have hprobe : s.audio.probe ≠ .undecided → detected.probe = s.audio.probe := by
    intro hdecided
    rw [hdetected, AudioTrack.detect_of_decided hdecided]
  obtain ⟨calls, hwritten, hcalls⟩ := h.handed
  unfold audioPacket
  simp only [← hdetected]
  split
  · next hun =>
    -- the question stays open, so nothing has been written
    simpa using h.withAudio detected hprobe fun hne => absurd hun hne
  · next hbefore hafter =>
    -- the track is confirmed by this packet; before the start what has waited is discarded
    split
    · next hs =>
      simpa using h.withAudio detected.discardPending (fun hne => absurd hbefore hne)
        fun _ => h.held_eq_nil hs
    · have hconfirmed : detected.drainPending.2.probe = .confirmed :=
        (AudioTrack.drainPending_probe detected).trans hafter
      exact releaseHeld_account h.codec_eq h.started_iff h.clock_eq
        ⟨calls, hwritten.congr rfl fun hne => absurd hbefore hne, hcalls⟩ fun _ => hconfirmed
  -- the question was answered before: the release, and then the frames of the packet
  · have hreleased : Account codec units
        (out ++ (({ s with audio := detected } : RtpToTs).releaseHeld []).1)
        (({ s with audio := detected } : RtpToTs).releaseHeld []).2 :=
      releaseHeld_account h.codec_eq h.started_iff h.clock_eq
        ⟨calls, hwritten.congr rfl hprobe, hcalls⟩ fun hne => absurd rfl hne
    split
    · exact hreleased
    · obtain ⟨hquiet, hspoken⟩ := frames_account hreleased payloadType timestamp payload
      split
      · exact hquiet
      · next muxer hmuxer =>
        rw [← List.append_assoc]
        exact hspoken muxer hmuxer

/-- Neither the video half nor the open unit is touched by an audio packet. -/
theorem audioPacket_frame (s : RtpToTs) (payloadType : UInt8) (timestamp : UInt32)
    (payload : Bytes) :
    (s.audioPacket payloadType timestamp payload).2.video = s.video ∧
    (s.audioPacket payloadType timestamp payload).2.unit = s.unit ∧
    (s.audioPacket payloadType timestamp payload).2.unitTimestamp = s.unitTimestamp := by
  unfold audioPacket
  dsimp only
  -- the branches of the function, none of which writes to the buffer
  split
  · exact ⟨rfl, rfl, rfl⟩
  · split
    · exact ⟨rfl, rfl, rfl⟩
    · rw [releaseHeld_frame]
      exact ⟨rfl, rfl, rfl⟩
  · split
    · rw [releaseHeld_frame]
      exact ⟨rfl, rfl, rfl⟩
    · split <;> rw [releaseHeld_frame] <;> exact ⟨rfl, rfl, rfl⟩

/-! ### One item, and the items of a session -/

/-- The items so far are accounted for: the closed units, and the open one in the buffer. -/
structure ItemAccount (codec : VideoCodec) (items : List RtpOutput) (out : Bytes) (s : RtpToTs) :
    Prop where
  closed : Account codec (fromKeyframe codec (cut none items).1) out s
  current : Holds (cut none items).2 s

/-- The buffer after the bytes of an item. -/
theorem Holds.extend {current : Option AccessUnit} (h : Holds current s) (timestamp : UInt32)
    (data : Bytes) :
    Holds (if data = [] then current
        else some (timestamp, (current.map Prod.snd).getD [] ++ data))
      (if data = [] then s
        else { s with unitTimestamp := some timestamp, unit := s.unit ++ data }) := by
  split
  · exact h
  · refine ⟨?_, fun hnone => by cases hnone⟩
    obtain ⟨rfl, hempty⟩ := h
    -- the bytes are appended to the open unit, or open one
    cases hstamp : s.unitTimestamp with
    | none => simp [hempty hstamp]
    | some last => simp

/-- A video item, step by step: switch, extend, close on the marker. -/
theorem feedItem_video (s : RtpToTs) (timestamp : UInt32) (marker : Bool) (data : Bytes) :
    s.feedItem (.video timestamp marker data) =
      (let switched := if s.unitTimestamp.any (· ≠ timestamp) then s.flushUnit else ([], s)
      let extended := if data = [] then switched.2
        else { switched.2 with
          unitTimestamp := some timestamp
          unit := switched.2.unit ++ data }
      if data ≠ [] ∧ extended.unit.length > maxUnitBytes then
        (.error (.capacity "RTP video access unit exceeded its byte bound"), extended)
      else
        let marked := if marker then extended.flushUnit else ([], extended)
        (.ok (switched.1 ++ marked.1), marked.2)) := rfl

/-- **The rule of one item.** What closing a unit and hearing a packet preserve of the events so
far, the output so far and the state, and what does not speak of the buffer, an item that does not
fail preserves. -/
theorem feedItem_events (P : List StreamEvent → Bytes → RtpToTs → Prop)
    (hflush : ∀ {es out t current}, P es out t → Holds current t →
      P (es ++ current.toList.map .inl) (out ++ (t.flushUnit).1) (t.flushUnit).2)
    (hbuffer : ∀ {es out t timestamp unit}, P es out t →
      P es out { t with unitTimestamp := some timestamp, unit := unit })
    (haudio : ∀ {es out t} (packet : OtherPacket), P es out t →
      P (es ++ [.inr packet])
        (out ++ (t.audioPacket packet.payloadType packet.timestamp packet.payload).1)
        (t.audioPacket packet.payloadType packet.timestamp packet.payload).2)
    {es : List StreamEvent} {current : Option AccessUnit} {item : RtpOutput} {more : Bytes}
    {s' : RtpToTs} (h : P es out s) (hholds : Holds current s)
    (hok : s.feedItem item = (.ok more, s')) :
    P (es ++ itemEvents current item) (out ++ more) s' ∧ Holds (cutItem current item).2 s' := by
  cases item with
  -- a packet of another type goes to the audio
  | other payloadType timestamp payload =>
    have hpacket : (Except.ok (s.audioPacket payloadType timestamp payload).1,
        (s.audioPacket payloadType timestamp payload).2) =
          ((.ok more, s') : Except BridgeError Bytes × RtpToTs) := hok
    obtain ⟨hmore, rfl⟩ := Prod.mk.inj hpacket
    obtain rfl := Except.ok.inj hmore
    obtain ⟨-, hunit, hstamp⟩ := s.audioPacket_frame payloadType timestamp payload
    refine ⟨haudio ⟨payloadType, timestamp, payload⟩ h, ?_⟩
    show Holds current _
    rw [Holds, hunit, hstamp]
    exact hholds
  -- the video: the open unit, the new bytes, the bound and the marker
  | video timestamp marker data =>
    rw [feedItem_video] at hok
    have hdiffers : s.unitTimestamp.any (· ≠ timestamp) =
        current.any fun unit => unit.1 ≠ timestamp := by
      simp [hholds.1, Option.any_map]
    -- the open unit is put aside when the timestamp changes
    have hswitch : ∃ closed opened,
        closed = (if current.any fun unit => unit.1 ≠ timestamp then current.toList else []) ∧
        opened = (if current.any fun unit => unit.1 ≠ timestamp then none else current) ∧
        P (es ++ closed.map .inl)
          (out ++ (if s.unitTimestamp.any (· ≠ timestamp) then s.flushUnit else ([], s)).1)
          (if s.unitTimestamp.any (· ≠ timestamp) then s.flushUnit else ([], s)).2 ∧
        Holds opened (if s.unitTimestamp.any (· ≠ timestamp) then s.flushUnit else ([], s)).2 := by
      refine ⟨_, _, rfl, rfl, ?_⟩
      rw [hdiffers]
      split
      · exact ⟨hflush h hholds, flushUnit_holds hholds⟩
      · simpa using ⟨h, hholds⟩
    obtain ⟨closed, opened, hclosed, hopened, hP, hbuffered⟩ := hswitch
    generalize (if s.unitTimestamp.any (· ≠ timestamp) then s.flushUnit else ([], s)) = switched
      at hok hP hbuffered
    have hextended := hbuffered.extend timestamp data
    have hP' : P (es ++ closed.map .inl) (out ++ switched.1) (if data = [] then switched.2
        else { switched.2 with
          unitTimestamp := some timestamp
          unit := switched.2.unit ++ data }) := by
      split
      · exact hP
      · exact hbuffer hP
    dsimp only at hok
    generalize (if data = [] then switched.2 else { switched.2 with
      unitTimestamp := some timestamp
      unit := switched.2.unit ++ data }) = extended at hok hextended hP'
    have hcut : cutItem current (.video timestamp marker data) =
        (let extended := if data = [] then opened
          else some (timestamp, (opened.map Prod.snd).getD [] ++ data)
        if marker then (closed ++ extended.toList, none) else (closed, extended)) := by
      rw [hclosed, hopened]
      rfl
    -- a unit above the bound is an error
    split at hok
    · cases hok
    -- the marker closes the unit
    · rw [itemEvents, hcut]
      cases marker with
      | false =>
        cases hok
        exact ⟨by simpa using hP', hextended⟩
      | true =>
        obtain ⟨hmore, rfl⟩ := Prod.mk.inj hok
        obtain rfl := Except.ok.inj hmore
        refine ⟨?_, flushUnit_holds hextended⟩
        simpa [List.append_assoc] using hflush hP' hextended

/-- **One item** of the video half, when it does not fail. -/
theorem feedItem_account {items : List RtpOutput} {item : RtpOutput} {more : Bytes} {s' : RtpToTs}
    (h : ItemAccount codec items out s) (hok : s.feedItem item = (.ok more, s')) :
    ItemAccount codec (items ++ [item]) (out ++ more) s' ∧ s'.video = s.video := by
  have hstep := feedItem_events
    (fun es out t => Account codec (fromKeyframe codec (closedUnits es)) out t ∧ t.video = s.video)
    (by
      -- the three cases of the rule
      intro es out t current ⟨haccount, hvideo⟩ hholds
      have hflushed := flushUnit_account haccount hholds
      have hsame := t.flushUnit_frame.1
      rw [closedUnits_append, closedUnits_map_inl]
      exact ⟨hflushed, hsame.trans hvideo⟩)
    (by
      rintro es out t timestamp unit ⟨haccount, hvideo⟩
      exact ⟨haccount.buffered timestamp unit, hvideo⟩)
    (by
      intro es out t packet ⟨haccount, hvideo⟩
      obtain ⟨hsame, -, -⟩ := t.audioPacket_frame packet.payloadType packet.timestamp packet.payload
      rw [closedUnits_append, closedUnits_inr, List.append_nil]
      exact ⟨audioPacket_account haccount _ _ _, hsame.trans hvideo⟩)
    ⟨(closedUnits_events none items).symm ▸ h.closed, rfl⟩ h.current hok
  obtain ⟨⟨haccount, hvideo⟩, hholds⟩ := hstep
  rw [← events_concat, closedUnits_events] at haccount
  refine ⟨⟨haccount, ?_⟩, hvideo⟩
  rw [cut_append, cut_singleton]
  exact hholds

end RtpToTs

end EzvizBridge
