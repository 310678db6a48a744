import Mathlib.Data.List.Sort
import EzvizBridge.Transport.AudioProbe
import EzvizBridge.Transport.RtpTsSession

/-!
# When the audio track is confirmed, and what is written of it

The state of the probe is spread over the track, the hold queue and the muxer. The answer can be
given without any of them, from the events of a session: access units close, and packets of other
types arrive.

The question is open (`Open`) as long as fewer than 400 packets have been heard, the accepted video
has not outgrown a bound (`GaveUp`) and no packet has completed a run of eight units. The packet
that completes one while the question is open confirms the track (`ConfirmedBy`), and there is no
other way. What is written then are the units of this run, if a keyframe has been accepted
(`confirmingUnits`), and from there on the units of every packet of the type that arrives behind the
first keyframe (`laterUnits`).

`Listening` ties the state to this, phase by phase (`Phase`); closing a unit and hearing a packet
preserve it (`flushUnit_listening`, `audioPacket_listening`).
-/

namespace EzvizBridge

/-- The packets of other types that have arrived. -/
def heard (es : List StreamEvent) : List OtherPacket := es.filterMap Sum.getRight?

/-- What is heard of two parts is heard one after the other. -/
theorem heard_append (es es' : List StreamEvent) : heard (es ++ es') = heard es ++ heard es' :=
  List.filterMap_append

theorem heard_inl (es : List StreamEvent) (unit : AccessUnit) :
    heard (es ++ [.inl unit]) = heard es := by
  rw [heard_append]
  exact List.append_nil _

theorem heard_inr (es : List StreamEvent) (packet : OtherPacket) :
    heard (es ++ [.inr packet]) = heard es ++ [packet] :=
  heard_append es [.inr packet]

namespace RtpToTs

open AudioTrack Aac

/-! ### The question -/

/-- The units accepted so far, from the first keyframe on, with their time stamps. -/
def admitted (codec : VideoCodec) (es : List StreamEvent) : List HeldUnit :=
  stamped codec (fromKeyframe codec (closedUnits es))

/-- The units have outgrown one of the bounds of the hold queue. -/
def Overdue (held : List HeldUnit) : Prop :=
  (∃ first last, held.head? = some first ∧ held.getLast? = some last ∧
    audioWait ≤ last.pts - first.pts) ∨
  maxHeldUnits ≤ held.length ∨ maxHeldBytes ≤ (held.map fun unit => unit.data.length).sum

/-- At some time the accepted units had outgrown a bound: the video does not wait any longer. -/
def GaveUp (codec : VideoCodec) (es : List StreamEvent) : Prop :=
  ∃ units, units <+: admitted codec es ∧ Overdue units

/-- The audio question is open. -/
structure Open (codec : VideoCodec) (es : List StreamEvent) : Prop where
  few : (heard es).length < probeLimit
  waiting : ¬ GaveUp codec es
  silent : ∀ seen packet, seen ++ [packet] <+: heard es → ¬ Completes seen packet

/-- The track has been confirmed by `packet`, which came behind `front`: the question was open, and
the packet completed a run. -/
structure ConfirmedBy (codec : VideoCodec) (es front : List StreamEvent) (packet : OtherPacket)
    (back : List StreamEvent) : Prop where
  split : es = front ++ .inr packet :: back
  opened : Open codec front
  completes : Completes (heard front) packet

/-! ### What is written -/

/-- The units of the confirming run, which are written if a keyframe has been accepted. -/
def confirmingUnits (codec : VideoCodec) (front : List StreamEvent) (packet : OtherPacket) :
    List Bytes :=
  if admitted codec front = [] then []
  else audioUnits (runOf packet.payloadType (heard front ++ [packet]))

/-- The units of the packets of the type that arrive when a keyframe has been accepted, in the
events behind `seen`. -/
def laterUnits (codec : VideoCodec) (type : UInt8) (seen : List StreamEvent) :
    List StreamEvent → List Bytes
  | [] => []
  | .inl unit :: es => laterUnits codec type (seen ++ [.inl unit]) es
  | .inr packet :: es =>
    (if packet.payloadType = type ∧ admitted codec seen ≠ [] then unitsIn packet.payload else []) ++
      laterUnits codec type (seen ++ [.inr packet]) es

/-- The muxer call for a unit or a frame. -/
def callOf : HeldUnit ⊕ (ℤ × Bytes) → TsMuxer.Call := Sum.elim videoCall audioCall

/-- The time stamp of a unit or a frame. -/
def ptsOf : HeldUnit ⊕ (ℤ × Bytes) → ℤ := Sum.elim HeldUnit.pts Prod.fst

/-! ### The order of a release -/

/-- The units and the frames in the order of their time stamps, units first. -/
def releaseOrder (held : List HeldUnit) (frames : List (ℤ × Bytes)) :
    List (HeldUnit ⊕ (ℤ × Bytes)) :=
  List.merge (held.map .inl) (frames.map .inr) fun x y => ptsOf x ≤ ptsOf y

theorem releaseOrder_nil (frames : List (ℤ × Bytes)) : releaseOrder [] frames = frames.map .inr :=
  List.nil_merge _

theorem releaseOrder_nil_right (held : List HeldUnit) : releaseOrder held [] = held.map .inl :=
  List.merge_right _

/-- A frame from before the next unit comes first. -/
theorem releaseOrder_of_lt {unit : HeldUnit} {frame : ℤ × Bytes} (h : frame.1 < unit.pts)
    (held : List HeldUnit) (frames : List (ℤ × Bytes)) :
    releaseOrder (unit :: held) (frame :: frames) =
      .inr frame :: releaseOrder (unit :: held) frames := by
  have hle : ¬ ptsOf (.inl unit) ≤ ptsOf (.inr frame) := not_le.mpr h
  rw [releaseOrder, List.map_cons, List.map_cons, List.cons_merge_cons_neg]
  · rfl
  · simpa using hle

/-- Otherwise the unit does. -/
theorem releaseOrder_of_le {unit : HeldUnit} {frame : ℤ × Bytes} (h : unit.pts ≤ frame.1)
    (held : List HeldUnit) (frames : List (ℤ × Bytes)) :
    releaseOrder (unit :: held) (frame :: frames) =
      .inl unit :: releaseOrder held (frame :: frames) := by
  have hle : ptsOf (.inl unit) ≤ ptsOf (.inr frame) := h
  rw [releaseOrder, List.map_cons, List.map_cons, List.cons_merge_cons_pos]
  · rfl
  · simpa using hle

/-- The calls of a release are made in this order, and it loses and repeats nothing. -/
theorem releaseOrder_spec (held : List HeldUnit) (frames : List (ℤ × Bytes)) :
    interleave held frames = (releaseOrder held frames).map callOf ∧
    (releaseOrder held frames).filterMap Sum.getLeft? = held ∧
    (releaseOrder held frames).filterMap Sum.getRight? = frames := by
  -- on both lists, as the order takes from one of them in each step
  induction held generalizing frames with
  | nil =>
    rw [releaseOrder_nil, List.map_map, List.filterMap_map, List.filterMap_map]
    exact ⟨rfl, List.filterMap_none _, List.filterMap_some⟩
  | cons unit held ih =>
    induction frames with
    | nil =>
      obtain ⟨hcalls, hleft, hright⟩ := ih []
      rw [releaseOrder_nil_right] at *
      exact ⟨congrArg _ hcalls, congrArg _ hleft, hright⟩
    | cons frame frames ihf =>
      by_cases hlt : frame.1 < unit.pts
      -- the frame is from before the unit, so it is among those that `interleave` takes first
      · obtain ⟨hcalls, hleft, hright⟩ := ihf
        rw [releaseOrder_of_lt hlt]
        refine ⟨?_, hleft, congrArg _ hright⟩
        rw [List.map_cons, ← hcalls, interleave, interleave,
          List.takeWhile_cons_of_pos (by simpa using hlt),
          List.dropWhile_cons_of_pos (by simpa using hlt)]
        rfl
      -- the unit is first
      · obtain ⟨hcalls, hleft, hright⟩ := ih (frame :: frames)
        rw [releaseOrder_of_le (not_lt.mp hlt)]
        refine ⟨?_, congrArg _ hleft, hright⟩
        rw [List.map_cons, ← hcalls, interleave,
          List.takeWhile_cons_of_neg (by simpa using hlt),
          List.dropWhile_cons_of_neg (by simpa using hlt)]
        rfl

/-- If both come in the order of their time stamps, so does the release. -/
theorem releaseOrder_sorted {held : List HeldUnit} {frames : List (ℤ × Bytes)}
    (hheld : held.Pairwise fun x y => x.pts ≤ y.pts)
    (hframes : frames.Pairwise fun x y => x.1 ≤ y.1) :
    (releaseOrder held frames).Pairwise fun x y => ptsOf x ≤ ptsOf y := by
  have hleft : (held.map .inl).Pairwise (Order.Preimage ptsOf (· ≤ ·)) :=
    List.pairwise_map.mpr hheld
  have hright : (frames.map .inr).Pairwise (Order.Preimage ptsOf (· ≤ ·)) :=
    List.pairwise_map.mpr hframes
  exact hleft.merge hright

/-! ### Event by event -/

variable {codec : VideoCodec} {es front back : List StreamEvent} {packet : OtherPacket}

/-- Nothing is admitted as long as no keyframe has closed. -/
theorem admitted_eq_nil_iff :
    admitted codec es = [] ↔ fromKeyframe codec (closedUnits es) = [] := by
  rw [admitted, stamped, List.mapIdx_eq_nil_iff]

theorem admitted_inr (packet : OtherPacket) :
    admitted codec (es ++ [.inr packet]) = admitted codec es := by
  rw [admitted, closedUnits_append, closedUnits_inr, List.append_nil]
  rfl

/-- A unit that closes is admitted behind the others, unless it comes before the first keyframe. -/
theorem admitted_inl (codec : VideoCodec) (es : List StreamEvent) (unit : AccessUnit) :
    admitted codec (es ++ [.inl unit]) =
      if admitted codec es = [] ∧ isKeyframe codec unit.2 = false then []
      else admitted codec es ++ [{
        pts := ptsBase + elapsed ((fromKeyframe codec (closedUnits es)).map Prod.fst ++ [unit.1])
        keyframe := isKeyframe codec unit.2
        data := unit.2 }] := by
  -- the unit is the last one that has closed
  have hclosed : closedUnits (es ++ [.inl unit]) = closedUnits es ++ [unit] :=
    closedUnits_append es _
  rw [admitted, hclosed, fromKeyframe_concat]
  simp only [admitted_eq_nil_iff]
  split
  -- no keyframe yet
  · rfl
  · rw [stamped_concat]
    rfl

/-- What is admitted stays admitted. -/
theorem prefix_admitted (codec : VideoCodec) (es : List StreamEvent) (e : StreamEvent) :
    admitted codec es <+: admitted codec (es ++ [e]) := by
  cases e with
  | inr packet => rw [admitted_inr]
  | inl unit =>
    rw [admitted_inl]
    split
    · next hskip =>
      rw [hskip.1]
    · exact List.prefix_append _ _

theorem prefix_heard (es : List StreamEvent) (e : StreamEvent) :
    heard es <+: heard (es ++ [e]) := by
  rw [heard_append]
  exact List.prefix_append _ _

/-- At the beginning the question is open. -/
theorem open_nil (codec : VideoCodec) : Open codec [] where
  few := Nat.zero_lt_succ 399
  -- nothing is held, so nothing is overdue
  waiting := by
    rintro ⟨units, hinit, hoverdue⟩
    obtain rfl := List.prefix_nil.mp hinit
    obtain ⟨first, last, hfirst, -, -⟩ | hmany | hbytes := hoverdue
    · cases hfirst
    · exact absurd hmany (Nat.not_succ_le_zero 63)
    · exact absurd hbytes (Nat.not_succ_le_zero _)
  -- nothing was heard, so no run is completed
  silent := by
    intro seen packet hinit
    have hle := hinit.length_le
    rw [List.length_append] at hle
    exact absurd hle (Nat.not_succ_le_zero _)

theorem Open.of_concat {e : StreamEvent} (h : Open codec (es ++ [e])) : Open codec es where
  few := (prefix_heard es e).length_le.trans_lt h.few
  waiting := fun ⟨units, hinit, hoverdue⟩ =>
    h.waiting ⟨units, hinit.trans (prefix_admitted codec es e), hoverdue⟩
  silent := fun seen packet hinit => h.silent seen packet (hinit.trans (prefix_heard es e))

/-- A packet leaves the question open if it completes no run and is not the last that is heard. -/
theorem open_inr_iff : Open codec (es ++ [.inr packet]) ↔
    Open codec es ∧ (heard es).length + 1 < probeLimit ∧ ¬ Completes (heard es) packet := by
  -- both directions by the three clauses of `Open`
  constructor
  · intro h
    refine ⟨h.of_concat, ?_, ?_⟩
    · have hfew := h.few
      rwa [heard_inr, List.length_append, List.length_singleton] at hfew
    · apply h.silent
      rw [heard_inr]
  · rintro ⟨hopen, hfew, hnot⟩
    refine ⟨?_, ?_, ?_⟩
    · rwa [heard_inr, List.length_append, List.length_singleton]
    · rw [GaveUp, admitted_inr]
      exact hopen.waiting
    -- the packet that completes a run is this one or an earlier one
    · intro seen packet' hinit
      rw [heard_inr, List.prefix_concat_iff] at hinit
      obtain heq | hinit := hinit
      · obtain ⟨rfl, hpacket⟩ := List.append_inj' heq rfl
        obtain rfl := List.singleton_inj.mp hpacket
        exact hnot
      · exact hopen.silent seen packet' hinit

/-- A unit that is admitted leaves the question open if the video can wait. -/
theorem open_inl_iff {unit : AccessUnit} : Open codec (es ++ [.inl unit]) ↔
    Open codec es ∧ ¬ Overdue (admitted codec (es ++ [.inl unit])) := by
  constructor
  · intro h
    exact ⟨h.of_concat, fun hoverdue => h.waiting ⟨_, List.prefix_rfl, hoverdue⟩⟩
  · rintro ⟨hopen, hnot⟩
    refine ⟨?_, ?_, ?_⟩
    · rw [heard_inl]
      exact hopen.few
    -- what is overdue is the list with the new unit, or it was overdue before
    · rintro ⟨units, hinit, hoverdue⟩
      have hcases : units = admitted codec (es ++ [.inl unit]) ∨ units <+: admitted codec es := by
        rw [admitted_inl] at hinit ⊢
        by_cases hskip : admitted codec es = [] ∧ isKeyframe codec unit.2 = false
        · rw [if_pos hskip] at hinit ⊢
          exact Or.inl (List.prefix_nil.mp hinit)
        · rw [if_neg hskip] at hinit ⊢
          exact List.prefix_concat_iff.mp hinit
      obtain rfl | hinit := hcases
      · exact hnot hoverdue
      · exact hopen.waiting ⟨units, hinit, hoverdue⟩
    · rw [heard_inl]
      exact hopen.silent

/-! ### Who confirms -/

/-- While the question is open nobody has confirmed the track. -/
theorem Open.not_confirmedBy (h : Open codec es) : ¬ ConfirmedBy codec es front packet back := by
  rintro ⟨rfl, -, hcompletes⟩
  refine h.silent (heard front) packet ⟨heard back, ?_⟩ hcompletes
  rw [heard_append, List.append_assoc]
  rfl

/-- What comes later does not change what has confirmed the track. -/
theorem ConfirmedBy.concat (h : ConfirmedBy codec es front packet back) (e : StreamEvent) :
    ConfirmedBy codec (es ++ [e]) front packet (back ++ [e]) where
  split := by rw [h.split, List.append_assoc, List.cons_append]
  opened := h.opened
  completes := h.completes

/-- The last event confirms the track, or it had been confirmed before. -/
theorem ConfirmedBy.cases_concat {e : StreamEvent}
    (h : ConfirmedBy codec (es ++ [e]) front packet back) :
    (e = .inr packet ∧ Open codec es ∧ Completes (heard es) packet) ∨
      ∃ back, ConfirmedBy codec es front packet back := by
  obtain ⟨hsplit, hopen, hcompletes⟩ := h
  obtain rfl | ⟨back, last, rfl⟩ := List.eq_nil_or_concat back
  · obtain ⟨rfl, he⟩ := List.append_inj' hsplit rfl
    exact Or.inl ⟨List.singleton_inj.mp he, hopen, hcompletes⟩
  · rw [List.concat_eq_append, ← List.cons_append, ← List.append_assoc] at hsplit
    obtain ⟨rfl, -⟩ := List.append_inj' hsplit rfl
    exact Or.inr ⟨back, rfl, hopen, hcompletes⟩

/-- No later packet confirms the track once more: the question was still open before it. -/
theorem ConfirmedBy.not_later {front' back' rest : List StreamEvent} {packet' : OtherPacket}
    {e : StreamEvent} (h : ConfirmedBy codec es front packet back)
    (h' : ConfirmedBy codec es front' packet' back') (hlater : front' = front ++ e :: rest) :
    False := by
  have hsplit := h.split.symm.trans h'.split
  rw [hlater, List.append_assoc, List.append_cancel_left_eq, List.cons_append] at hsplit
  obtain ⟨rfl, -⟩ := List.cons.inj hsplit
  exact h'.opened.not_confirmedBy ⟨hlater, h.opened, h.completes⟩

/-- The track is confirmed only once. -/
theorem ConfirmedBy.unique {front' back' : List StreamEvent} {packet' : OtherPacket}
    (h : ConfirmedBy codec es front packet back) (h' : ConfirmedBy codec es front' packet' back') :
    front = front' ∧ packet = packet' ∧ back = back' := by
  have hsplit := h.split.symm.trans h'.split
  -- one of the two beginnings continues the other, and then the track was confirmed before
  have hfront : front = front' := by
    obtain ⟨rest, hlater, -⟩ | ⟨rest, hlater, -⟩ := List.append_eq_append_iff.mp hsplit
    · cases rest with
      | nil => rw [hlater, List.append_nil]
      | cons e rest => exact (h.not_later h' hlater).elim
    · cases rest with
      | nil => rw [hlater, List.append_nil]
      | cons e rest => exact (h'.not_later h hlater).elim
  subst hfront
  obtain ⟨hpacket, hback⟩ := List.cons.inj (List.append_cancel_left hsplit)
  exact ⟨rfl, Sum.inr.inj hpacket, hback⟩

/-- The later units of two parts. -/
theorem laterUnits_append (codec : VideoCodec) (type : UInt8) (seen es es' : List StreamEvent) :
    laterUnits codec type seen (es ++ es') =
      laterUnits codec type seen es ++ laterUnits codec type (seen ++ es) es' := by
  induction es generalizing seen with
  | nil => rw [List.nil_append, laterUnits, List.nil_append, List.append_nil]
  | cons e es ih =>
    cases e with
    | inl unit => rw [List.cons_append, laterUnits, laterUnits, ih, List.append_assoc]; rfl
    | inr packet =>
      rw [List.cons_append, laterUnits, laterUnits, ih, List.append_assoc, List.append_assoc]
      rfl

/-! ### The phases -/

/-- Where the question stands after the events, with the calls made so far. -/
inductive Phase (codec : VideoCodec) (es : List StreamEvent) (calls : List TsMuxer.Call)
    (s : RtpToTs) :
    Prop
  /-- Open: the run is remembered, every accepted unit is held, and nothing is written. -/
  | undecided (opened : Open codec es) (remembers : Remembers (heard es) s.audio)
      (held : s.held = admitted codec es) (quiet : calls = [])
  /-- Given up: nobody confirmed the track, and no audio is written. -/
  | absent (answer : s.audio.probe = .absent) (closed : ¬ Open codec es)
      (never : ∀ front packet back, ¬ ConfirmedBy codec es front packet back)
      (silent : calls.filter TsMuxer.Call.isAudio = [])
  /-- Confirmed: the first calls are the release of what was held then with the confirming units,
  and the audio calls behind them are the later units. -/
  | confirmed (front : List StreamEvent) (packet : OtherPacket) (back : List StreamEvent)
      (frames later : List (ℤ × Bytes)) (rest : List TsMuxer.Call)
      (confirmedBy : ConfirmedBy codec es front packet back)
      (answer : s.audio.payloadType = some packet.payloadType)
      (split : calls = interleave (admitted codec front) frames ++ rest)
      (confirming : Carried frames (confirmingUnits codec front packet))
      (audio : rest.filter TsMuxer.Call.isAudio = later.map audioCall)
      (spoken : Carried later
        (laterUnits codec packet.payloadType (front ++ [.inr packet]) back))

/-- What a session has written is accounted for, the audio with the video. -/
def Listening (codec : VideoCodec) (es : List StreamEvent) (out : Bytes) (s : RtpToTs) : Prop :=
  Account codec (fromKeyframe codec (closedUnits es)) out s ∧
    ∃ calls, Written codec calls out s ∧ Phase codec es calls s

variable {calls : List TsMuxer.Call} {out : Bytes} {s : RtpToTs}

/-- When the question is answered, the track knows the answer. -/
theorem Phase.decided (h : Phase codec es calls s) (hnot : ¬ Open codec es) :
    s.audio.probe ≠ .undecided := by
  cases h with
  | undecided opened => exact absurd opened hnot
  | absent answer => rw [answer]; decide
  | confirmed front packet back frames later rest confirmedBy answer =>
    rw [probe_of_type answer]
    decide

/-- An event that closes the question without confirming the track leaves it without one. -/
theorem Open.gives_up {e : StreamEvent} (h : Open codec es) (hclosed : ¬ Open codec (es ++ [e]))
    (hnot : ∀ packet, e = .inr packet → ¬ Completes (heard es) packet)
    (habsent : s.audio.probe = .absent) : Phase codec (es ++ [e]) [] s := by
  refine Phase.absent habsent hclosed ?_ rfl
  intro front packet back hconfirmed
  -- the confirming packet is the event itself or one of those before it
  obtain ⟨heq, -, hcompletes⟩ | ⟨back, hconfirmed⟩ := hconfirmed.cases_concat
  · exact hnot packet heq hcompletes
  · exact h.not_confirmedBy hconfirmed

/-- The question is open and nothing is written, or it is answered. -/
theorem Phase.open_or (h : Phase codec es calls s) :
    (Open codec es ∧ Remembers (heard es) s.audio ∧ s.held = admitted codec es ∧ calls = []) ∨
      ¬ Open codec es := by
  cases h with
  | undecided opened remembers held quiet => exact Or.inl ⟨opened, remembers, held, quiet⟩
  | absent answer closed => exact Or.inr closed
  | confirmed front packet back frames later rest confirmedBy =>
    exact Or.inr fun hopen => hopen.not_confirmedBy confirmedBy

/-- The phase depends on the state through the track and the hold queue alone. -/
theorem Phase.congr (h : Phase codec es calls s) {s' : RtpToTs} (haudio : s'.audio = s.audio)
    (hheld : s'.held = s.held) : Phase codec es calls s' := by
  cases h with
  | undecided opened remembers held quiet =>
    exact Phase.undecided opened (haudio ▸ remembers) (hheld.trans held) quiet
  | absent answer closed never silent => exact Phase.absent (haudio ▸ answer) closed never silent
  | confirmed front packet back frames later rest confirmedBy answer split confirming
    audio spoken =>
    exact Phase.confirmed front packet back frames later rest confirmedBy (haudio ▸ answer) split
      confirming audio spoken

/-- An answered question stays answered when a unit closes. -/
theorem Phase.inl (h : Phase codec es calls s) (hclosed : ¬ Open codec es) (unit : AccessUnit)
    {s' : RtpToTs} (haudio : s'.audio = s.audio) : Phase codec (es ++ [.inl unit]) calls s' := by
  cases h with
  | undecided opened => exact absurd opened hclosed
  -- a unit is no packet, so it confirms nothing
  | absent answer closed never silent =>
    refine Phase.absent (haudio ▸ answer) (fun hopen => closed hopen.of_concat) ?_ silent
    intro front packet back hconfirmed
    obtain ⟨heq, -⟩ | ⟨back, hconfirmed⟩ := hconfirmed.cases_concat
    · cases heq
    · exact never front packet back hconfirmed
  -- the frames that were spoken are the same
  | confirmed front packet back frames later rest confirmedBy answer split confirming
    audio spoken =>
    refine Phase.confirmed front packet (back ++ [.inl unit]) frames later rest
      (confirmedBy.concat _) (haudio ▸ answer) split confirming audio ?_
    rw [laterUnits_append, laterUnits, laterUnits, List.append_nil]
    exact spoken

/-- The audio calls of a release are those of its frames. -/
theorem filter_isAudio_interleave (held : List HeldUnit) (frames : List (ℤ × Bytes)) :
    (interleave held frames).filter TsMuxer.Call.isAudio = frames.map audioCall := by
  have haudio : ∀ frames : List (ℤ × Bytes),
      (frames.map audioCall).filter TsMuxer.Call.isAudio = frames.map audioCall := by
    intro frames
    rw [List.filter_eq_self]
    intro c hc
    obtain ⟨frame, -, rfl⟩ := List.mem_map.mp hc
    rfl
  -- on the units that are held
  induction held generalizing frames with
  | nil => exact haudio frames
  | cons unit held ih =>
    rw [interleave, List.filter_append, haudio, List.filter_cons_of_neg (by simp [videoCall,
      TsMuxer.Call.isAudio]), ih, ← List.map_append, List.takeWhile_append_dropWhile]

/-- Video calls behind an answer, and whatever else leaves the answer as it is. -/
theorem Phase.release (h : Phase codec es calls s) (hclosed : ¬ Open codec es) {s' : RtpToTs}
    (haudio : s'.audio.probe = s.audio.probe) (htype : s'.audio.payloadType = s.audio.payloadType)
    (held : List HeldUnit) : Phase codec es (calls ++ interleave held []) s' := by
  have hnone := filter_isAudio_interleave held []
  -- by the answer; the calls that are added are those of video
  cases h with
  | undecided opened => exact absurd opened hclosed
  | absent answer closed never silent =>
    refine Phase.absent (haudio.trans answer) closed never ?_
    rw [List.filter_append, silent, hnone]
    rfl
  | confirmed front packet back frames later rest confirmedBy answer split confirming
    audio spoken =>
    refine Phase.confirmed front packet back frames later (rest ++ interleave held []) confirmedBy
      (htype.trans answer) ?_ confirming ?_ spoken
    · rw [split, List.append_assoc]
    · rw [List.filter_append, audio, hnone, List.map_nil, List.append_nil]

/-- The calls of a release. -/
theorem Written.released (h : Written codec calls out s) (hcodec : s.video.codec = some codec)
    (hstarted : s.started = true) (hdecided : s.audio.probe ≠ .undecided)
    {frames : List (ℤ × Bytes)} (hframes : frames ≠ [] → s.audio.probe = .confirmed) :
    Written codec (calls ++ interleave s.held frames) (out ++ (s.releaseHeld frames).1)
      (s.releaseHeld frames).2 := by
  simp only [RtpToTs.releaseHeld, hcodec, hdecided, hstarted, Bool.true_eq_false, or_self, if_false]
  exact h.more hdecided (interleave_allowed hframes) _ rfl rfl

/-- Without frames, a release before the stream has started makes no call. -/
theorem Written.releaseHeld (h : Written codec calls out s) (hcodec : s.video.codec = some codec)
    (hidle : s.started = false → s.held = []) (hdecided : s.audio.probe ≠ .undecided) :
    Written codec (calls ++ interleave s.held []) (out ++ (s.releaseHeld []).1)
      (s.releaseHeld []).2 := by
  cases hs : s.started with
  | false =>
    have hquiet : s.releaseHeld [] = ([], s) := by
      simp [RtpToTs.releaseHeld, hcodec, hs]
    rw [hquiet, hidle hs, interleave, List.map_nil, List.append_nil, List.append_nil]
    exact h
  | true => exact h.released hcodec hs hdecided fun hne => absurd rfl hne

/-! ### Closing a unit -/

/-- The bounds are those of the units held, the last of which has just been stamped. -/
theorem overdue_iff {held : List HeldUnit} {last : HeldUnit} (hlast : held.getLast? = some last) :
    ((held.head?.map fun unit => last.pts - unit.pts).getD 0 ≥ audioWait ∨
      held.length ≥ maxHeldUnits ∨
      (held.map fun unit => unit.data.length).sum ≥ maxHeldBytes) ↔ Overdue held := by
  -- the first one that is held has waited since the last one was stamped
  have hwaited : (held.head?.map fun unit => last.pts - unit.pts).getD 0 ≥ audioWait ↔
      ∃ first last, held.head? = some first ∧ held.getLast? = some last ∧
        audioWait ≤ last.pts - first.pts := by
    cases held with
    | nil => cases hlast
    | cons first held =>
      constructor
      · intro h
        exact ⟨first, last, rfl, hlast, h⟩
      · rintro ⟨first', last', hfirst, hlast', h⟩
        obtain rfl := Option.some.inj hfirst
        obtain rfl := Option.some.inj (hlast.symm.trans hlast')
        exact h
  rw [hwaited]
  rfl

/-- Nothing that is held is nothing overdue. -/
theorem not_overdue_nil : ¬ Overdue [] := fun h =>
  (open_nil .h264).waiting ⟨[], List.nil_prefix, h⟩

/-- A unit that has been accepted, against the bounds and through the release. -/
theorem boundHeld_listening {last : HeldUnit} (hlast : s.held.getLast? = some last)
    (hstarted : s.started = true) (hcodec : s.video.codec = some codec)
    (hwritten : Written codec calls out s) {unit : AccessUnit}
    (hphase : (Open codec es ∧ Remembers (heard es) s.audio ∧
        s.held = admitted codec (es ++ [.inl unit]) ∧ calls = []) ∨
      (¬ Open codec (es ++ [.inl unit]) ∧ Phase codec (es ++ [.inl unit]) calls s)) :
    let released := (s.boundHeld last.pts).releaseHeld []
    ∃ calls, Written codec calls (out ++ released.1) released.2 ∧
      Phase codec (es ++ [.inl unit]) calls released.2 := by
  intro released
  have hidle : s.started = false → s.held = [] := fun hs => by rw [hstarted] at hs; cases hs
  -- the question was open in front of this unit, or it has been answered
  obtain ⟨hopen, hremembers, hheld, hcalls⟩ | ⟨hclosed, hphase⟩ := hphase
  · by_cases hoverdue : Overdue s.held
    · -- the video does not wait any longer
      have hbound : s.boundHeld last.pts = { s with audio := s.audio.giveUp } :=
        if_pos ⟨hremembers.undecided, (overdue_iff hlast).mpr hoverdue⟩
      have habsent := giveUp_absent hremembers.undecided
      have hclosed : ¬ Open codec (es ++ [.inl unit]) := fun h =>
        (open_inl_iff.mp h).2 (hheld ▸ hoverdue)
      have hgiven : Phase codec (es ++ [.inl unit]) calls { s with audio := s.audio.giveUp } := by
        rw [hcalls]
        exact hopen.gives_up hclosed (fun packet heq => by cases heq) habsent
      have hdecided := hgiven.decided hclosed
      have hwritten' : Written codec calls out { s with audio := s.audio.giveUp } :=
        hwritten.congr rfl fun hne => absurd hremembers.undecided hne
      have hreleased := hwritten'.releaseHeld hcodec hidle hdecided
      simp only [released, hbound]
      refine ⟨_, hreleased, ?_⟩
      apply hgiven.release hclosed <;> rw [releaseHeld_frame]
    -- the bounds are kept, and `release_held` waits for the answer
    · have hbound : s.boundHeld last.pts = s :=
        if_neg fun h => hoverdue ((overdue_iff hlast).mp h.2)
      have hquiet : s.releaseHeld [] = ([], s) := by
        simp [RtpToTs.releaseHeld, hcodec, hremembers.undecided]
      simp only [released, hbound, hquiet, List.append_nil]
      refine ⟨calls, hwritten, Phase.undecided (open_inl_iff.mpr ⟨hopen, hheld ▸ hoverdue⟩) ?_ hheld
        hcalls⟩
      rw [heard_inl]
      exact hremembers
  -- with an answer the bounds are not looked at, and everything is released
  · have hdecided := hphase.decided hclosed
    have hbound : s.boundHeld last.pts = s := if_neg fun h => hdecided h.1
    simp only [released, hbound]
    refine ⟨_, hwritten.releaseHeld hcodec hidle hdecided, ?_⟩
    apply hphase.release hclosed <;> rw [releaseHeld_frame]

/-- **Closing a unit.** -/
theorem flushUnit_listening (h : Listening codec es out s) {current : Option AccessUnit}
    (hholds : Holds current s) :
    Listening codec (es ++ current.toList.map .inl) (out ++ (s.flushUnit).1) (s.flushUnit).2 := by
  obtain ⟨haccount, calls, hwritten, hphase⟩ := h
  have haccount' := flushUnit_account haccount hholds
  refine ⟨?_, ?_⟩
  · rw [closedUnits_append, closedUnits_map_inl]
    exact haccount'
  obtain ⟨rfl, -⟩ := hholds
  -- by whether there is a unit to close
  unfold flushUnit
  cases ht : s.unitTimestamp with
  | none =>
    refine ⟨calls, ?_, ?_⟩
    · simpa using hwritten
    · simpa using hphase
  | some timestamp =>
    simp only [Option.map_some, Option.toList_some, List.map_singleton, haccount.codec_eq,
      haccount.clock]
    -- the stream has started exactly when a unit was admitted
    have hstarted : s.started = false ↔ admitted codec es = [] := by
      rw [← Bool.not_eq_true, haccount.started_iff, not_not, admitted_eq_nil_iff]
    have hadmitted := admitted_inl codec es (timestamp, s.unit)
    by_cases hskip : s.started = false ∧ isKeyframe codec s.unit = false
    · -- a unit before the first keyframe changes nothing
      rw [if_pos ⟨hstarted.mp hskip.1, hskip.2⟩] at hadmitted
      rw [if_pos hskip, List.append_nil]
      refine ⟨calls, hwritten.congr rfl fun _ => rfl, ?_⟩
      obtain ⟨hopen, hremembers, hheld, hcalls⟩ | hclosed := hphase.open_or
      · refine Phase.undecided (open_inl_iff.mpr ⟨hopen, ?_⟩) ?_ ?_ hcalls
        · rw [hadmitted]
          exact not_overdue_nil
        · rw [heard_inl]
          exact hremembers
        · rw [hadmitted]
          exact hheld.trans (hstarted.mp hskip.1)
      · exact hphase.inl hclosed _ rfl
    · rw [if_neg fun h => hskip ⟨hstarted.mpr h.1, h.2⟩] at hadmitted
      rw [if_neg hskip]
      -- the state in which the unit has been accepted
      set emptied : RtpToTs := { s with unitTimestamp := none, unit := [] }
      set t := emptied.accepted codec (clockOf ((fromKeyframe codec (closedUnits es)).map Prod.fst))
        timestamp s.unit with ht'
      have hheld' : t.held = s.held ++ [{
          pts := ptsBase +
            elapsed ((fromKeyframe codec (closedUnits es)).map Prod.fst ++ [timestamp])
          keyframe := isKeyframe codec s.unit
          data := s.unit }] := by
        rw [ht', accepted, clockOf_advance]
      have hphase' : (Open codec es ∧ Remembers (heard es) t.audio ∧
            t.held = admitted codec (es ++ [.inl (timestamp, s.unit)]) ∧ calls = []) ∨
          (¬ Open codec (es ++ [.inl (timestamp, s.unit)]) ∧
            Phase codec (es ++ [.inl (timestamp, s.unit)]) calls t) := by
        -- the unit is held behind the others, or the question is answered
        obtain ⟨hopen, hremembers, hheld, hcalls⟩ | hclosed := hphase.open_or
        · refine Or.inl ⟨hopen, hremembers, ?_, hcalls⟩
          rw [hadmitted, hheld', hheld]
        · exact Or.inr ⟨fun h => hclosed h.of_concat, hphase.inl hclosed _ rfl⟩
      have hwritten' : Written codec calls out t := hwritten.congr rfl fun _ => rfl
      have hlast := congrArg List.getLast? hheld'
      rw [List.getLast?_concat] at hlast
      -- what is left is the bound and the release
      have hbounded := boundHeld_listening hlast rfl haccount.codec_eq hwritten' hphase'
      simp only [clockOf_advance]
      rw [ht', accepted, clockOf_advance] at hbounded
      exact hbounded

/-! ### Hearing a packet -/

/-- The state in which `detect` has seen the packet. -/
def detecting (s : RtpToTs) (packet : OtherPacket) : RtpToTs :=
  { s with audio := s.audio.detect packet.payloadType packet.timestamp packet.payload s.lastPts }

/-- The frames of a packet that comes when the question is answered. -/
def spokenFrames (s : RtpToTs) (packet : OtherPacket) : List (ℤ × Bytes) × AudioTrack :=
  if s.started then
    s.audio.frames packet.payloadType packet.timestamp packet.payload s.lastPts
  else ([], s.audio)

/-- A release of a running stream with an answer leaves a muxer behind. -/
theorem releaseHeld_muxer (hcodec : s.video.codec = some codec) (hstarted : s.started = true)
    (hdecided : s.audio.probe ≠ .undecided) (frames : List (ℤ × Bytes)) :
    ∃ muxer, (s.releaseHeld frames).2 = { s with muxer := some muxer, held := [] } := by
  simp only [RtpToTs.releaseHeld, hcodec, hdecided, hstarted, Bool.true_eq_false, or_self, if_false]
  exact ⟨_, rfl⟩

/-- What `audio_packet` does when the question is answered and the packet is not the one that
answered it with yes. -/
theorem audioPacket_eq (packet : OtherPacket)
    (hdecided : (s.detecting packet).audio.probe ≠ .undecided)
    (hnew : s.audio.probe = .undecided → (s.detecting packet).audio.probe ≠ .confirmed) :
    s.audioPacket packet.payloadType packet.timestamp packet.payload =
      (let released := (s.detecting packet).releaseHeld []
      if released.2.started = false then released
      else
        let frames := released.2.audio.frames packet.payloadType packet.timestamp packet.payload
          released.2.lastPts
        match released.2.muxer with
        | none => (released.1, { released.2 with audio := frames.2 })
        | some muxer =>
          (released.1 ++ (muxer.run (frames.1.map audioCall)).2,
            { released.2 with
              audio := frames.2
              muxer := some (muxer.run (frames.1.map audioCall)).1 })) := by
  unfold audioPacket
  dsimp only
  split
  -- the three arms of the source: undecided, confirmed just now, and the rest
  · next hun => exact absurd hun hdecided
  · next hbefore hafter => exact absurd hafter (hnew hbefore)
  · rfl

/-- Once the question is answered, what is held is released and the frames of the packet are written
behind it. -/
theorem audioPacket_answered (hcodec : s.video.codec = some codec)
    (hidle : s.started = false → s.held = []) (packet : OtherPacket)
    (hdecided : (s.detecting packet).audio.probe ≠ .undecided)
    (hnew : s.audio.probe = .undecided → (s.detecting packet).audio.probe ≠ .confirmed)
    (hwritten : Written codec calls out (s.detecting packet)) :
    let result := s.audioPacket packet.payloadType packet.timestamp packet.payload
    Written codec (calls ++ interleave s.held [] ++
        ((s.detecting packet).spokenFrames packet).1.map audioCall) (out ++ result.1) result.2 ∧
      result.2.audio = ((s.detecting packet).spokenFrames packet).2 := by
  intro result
  -- first the release of what is held, then the frames
  have hresult : result = _ := audioPacket_eq packet hdecided hnew
  set t := s.detecting packet
  have hcodec' : t.video.codec = some codec := hcodec
  have hreleased := hwritten.releaseHeld hcodec' hidle hdecided
  show Written codec (calls ++ interleave t.held [] ++ _) _ _ ∧ _
  rw [hresult]
  dsimp only
  -- a stream that has not started releases nothing, and writes no frames
  cases hs : t.started with
  | false =>
    have hquiet : t.releaseHeld [] = ([], t) := by
      simp [RtpToTs.releaseHeld, hs, hcodec']
    rw [hquiet] at hreleased ⊢
    simp only [hs, if_true, spokenFrames, Bool.false_eq_true, if_false, List.map_nil,
      List.append_nil]
    exact ⟨by simpa using hreleased, trivial⟩
  | true =>
    -- what is held is written, and the frames behind it
    obtain ⟨muxer, hstate⟩ := releaseHeld_muxer hcodec' hs hdecided []
    rw [hstate] at hreleased ⊢
    simp only [hs, Bool.true_eq_false, if_false, spokenFrames, if_true, and_true]
    have hprobe := t.audio.frames_probe packet.payloadType packet.timestamp packet.payload t.lastPts
    rw [← List.append_assoc out]
    exact hreleased.more hdecided (frames_allowed _ _ _ _ _) _ hprobe rfl

/-- The frames of a packet change neither the answer nor the type. -/
theorem spokenFrames_frame (s : RtpToTs) (packet : OtherPacket) :
    (s.spokenFrames packet).2.payloadType = s.audio.payloadType ∧
    (s.spokenFrames packet).2.probe = s.audio.probe := by
  unfold spokenFrames
  split
  · exact ⟨(s.audio.frames_frame _ _ _ _).1, s.audio.frames_probe _ _ _ _⟩
  · exact ⟨rfl, rfl⟩

/-- There are frames only for a packet of the confirmed type, of a stream that has started. -/
theorem spokenFrames_carried {type : UInt8} (htype : s.audio.payloadType = some type)
    (packet : OtherPacket) :
    Carried (s.spokenFrames packet).1
      (if packet.payloadType = type ∧ s.started = true then unitsIn packet.payload else []) := by
  unfold spokenFrames
  -- the type of the packet decides
  cases hs : s.started with
  | false => simpa using Carried.nil
  | true =>
    by_cases hsame : packet.payloadType = type
    · subst hsame
      simpa using frames_carried htype packet.timestamp packet.payload s.lastPts
    · have hne : s.audio.payloadType ≠ some packet.payloadType := by
        rw [htype]
        exact fun heq => hsame (Option.some.inj heq).symm
      simpa [frames_of_ne hne, hsame] using Carried.nil

/-- Without a type there are no frames. -/
theorem spokenFrames_of_none (htype : s.audio.payloadType = none) (packet : OtherPacket) :
    (s.spokenFrames packet).1 = [] := by
  unfold spokenFrames
  split
  · rw [frames_of_ne (by rw [htype]; simp)]
  · rfl

/-- An answered question stays answered when a packet is heard; its frames are the later units. -/
theorem Phase.inr (h : Phase codec es calls s) (hclosed : ¬ Open codec es)
    (hstarted : s.started = true ↔ admitted codec es ≠ []) (packet : OtherPacket) {s' : RtpToTs}
    (haudio : s'.audio = (s.spokenFrames packet).2) :
    Phase codec (es ++ [.inr packet]) (calls ++ (s.spokenFrames packet).1.map audioCall) s' := by
  obtain ⟨htype, hprobe⟩ := s.spokenFrames_frame packet
  rw [← haudio] at htype hprobe
  -- by the answer that was given
  cases h with
  | undecided opened => exact absurd opened hclosed
  -- a track that is absent speaks no frames, and no later packet confirms it
  | absent answer closed never silent =>
    rw [spokenFrames_of_none (type_of_absent answer), List.map_nil, List.append_nil]
    refine Phase.absent (hprobe.trans answer) (fun hopen => closed hopen.of_concat) ?_ silent
    intro front packet' back hconfirmed
    obtain ⟨-, hopen, -⟩ | ⟨back, hconfirmed⟩ := hconfirmed.cases_concat
    · exact closed hopen
    · exact never front packet' back hconfirmed
  -- the frames of this packet are behind the earlier ones
  | confirmed front first back frames later rest confirmedBy answer split confirming audio spoken =>
    have hframes := spokenFrames_carried answer packet
    simp only [hstarted] at hframes
    refine Phase.confirmed front first (back ++ [.inr packet]) frames
      (later ++ (s.spokenFrames packet).1) (rest ++ (s.spokenFrames packet).1.map audioCall)
      (confirmedBy.concat _) (htype.trans answer) ?_ confirming ?_ ?_
    · rw [split, List.append_assoc]
    · have hself := filter_isAudio_interleave [] (s.spokenFrames packet).1
      rw [interleave] at hself
      rw [List.filter_append, audio, hself, List.map_append]
    · rw [laterUnits_append, laterUnits, laterUnits, List.append_nil, List.append_assoc,
        List.singleton_append, ← confirmedBy.split]
      exact spoken.append hframes

section Hearing

variable {packet : OtherPacket}

/-- The packet that confirms the track. If the stream has started, the run is written between the
units held; otherwise the run is dropped. -/
theorem audioPacket_confirming (hcodec : s.video.codec = some codec)
    (hstarted : s.started = true ↔ admitted codec es ≠ []) (hopen : Open codec es)
    (hundecided : s.audio.probe = .undecided) (hheld : s.held = admitted codec es)
    (hwritten : Written codec [] out s) (hcompletes : Completes (heard es) packet)
    (htype : (s.detecting packet).audio.payloadType = some packet.payloadType)
    (hpending : (s.detecting packet).audio.pending.map
        (fun held => ⟨packet.payloadType, held.1, held.2.1⟩) =
      runOf packet.payloadType (heard es ++ [packet])) :
    let result := s.audioPacket packet.payloadType packet.timestamp packet.payload
    ∃ calls, Written codec calls (out ++ result.1) result.2 ∧
      Phase codec (es ++ [.inr packet]) calls result.2 := by
  intro result
  -- this packet has confirmed the track
  have hconfirmedBy : ConfirmedBy codec (es ++ [.inr packet]) es packet [] :=
    ⟨rfl, hopen, hcompletes⟩
  have hprobe :
      (s.audio.detect packet.payloadType packet.timestamp packet.payload s.lastPts).probe =
      .confirmed := probe_of_type htype
  -- the stream has not started: the run is dropped
  cases hs : s.started with
  | false =>
    have hresult :
        result = ([], { s with audio := (s.detecting packet).audio.discardPending }) := by
      simp only [result]
      unfold audioPacket
      simp [hundecided, hprobe, hs, detecting]
    have hnil : admitted codec es = [] := by
      by_contra hne
      rw [hstarted.mpr hne] at hs
      cases hs
    rw [hresult, List.append_nil]
    refine ⟨[], hwritten.congr rfl fun hne => absurd hundecided hne, ?_⟩
    -- nothing is held and no unit of the run is written
    refine Phase.confirmed es packet [] [] [] [] hconfirmedBy htype ?_ ?_ rfl Carried.nil
    · rw [hnil]
      rfl
    · rw [confirmingUnits, if_pos hnil]
      exact Carried.nil
  -- the stream has started: the run is written between the units that are held
  | true =>
    set drained := (s.detecting packet).audio.drainPending
    have hresult : result = ({ s with audio := drained.2 } : RtpToTs).releaseHeld drained.1 := by
      simp only [result]
      unfold audioPacket
      simp [hundecided, hprobe, hs, detecting, drained]
    have hdrained : drained.2.probe = .confirmed := (drainPending_probe _).trans hprobe
    have hwritten' : Written codec [] out { s with audio := drained.2 } :=
      hwritten.congr rfl fun hne => absurd hundecided hne
    rw [hresult]
    refine ⟨_, hwritten'.released hcodec hs (by rw [hdrained]; decide) (fun _ => hdrained), ?_⟩
    refine Phase.confirmed es packet [] drained.1 [] [] hconfirmedBy ?_ ?_ ?_ rfl Carried.nil
    · rw [releaseHeld_frame]
      exact (drainPending_payloadType _).trans htype
    · rw [← hheld, List.append_nil]
      rfl
    · rw [confirmingUnits, if_neg (hstarted.mp hs), ← hpending]
      exact drainPending_carried htype

/-- A packet behind which the question stays open changes only what the track remembers. -/
theorem audioPacket_remembering (hopen : Open codec (es ++ [.inr packet]))
    (hundecided : s.audio.probe = .undecided) (hheld : s.held = admitted codec es)
    (hwritten : Written codec [] out s)
    (hremembers : Remembers (heard es ++ [packet]) (s.detecting packet).audio) :
    let result := s.audioPacket packet.payloadType packet.timestamp packet.payload
    ∃ calls, Written codec calls (out ++ result.1) result.2 ∧
      Phase codec (es ++ [.inr packet]) calls result.2 := by
  intro result
  -- the arm of the source that waits
  have hnext : (s.audio.detect packet.payloadType packet.timestamp packet.payload s.lastPts).probe =
      .undecided := hremembers.undecided
  have hresult : result = ([], s.detecting packet) := by
    simp only [result]
    unfold audioPacket
    simp [hnext, detecting]
  rw [hresult, List.append_nil]
  refine ⟨[], hwritten.congr rfl fun hne => absurd hundecided hne, ?_⟩
  refine Phase.undecided hopen ?_ ?_ rfl
  · rw [heard_inr]
    exact hremembers
  · rw [admitted_inr]
    exact hheld

/-- The last packet that is heard without confirming the track: what is held is written without
audio. -/
theorem audioPacket_giving_up (hcodec : s.video.codec = some codec)
    (hidle : s.started = false → s.held = []) (hopen : Open codec es)
    (hundecided : s.audio.probe = .undecided) (hwritten : Written codec [] out s)
    (hnot : ¬ Completes (heard es) packet) (hlimit : probeLimit ≤ (heard es).length + 1)
    (habsent : (s.detecting packet).audio.probe = .absent) :
    let result := s.audioPacket packet.payloadType packet.timestamp packet.payload
    ∃ calls, Written codec calls (out ++ result.1) result.2 ∧
      Phase codec (es ++ [.inr packet]) calls result.2 := by
  intro result
  -- the limit of packets is reached, so the question is closed
  have hclosed : ¬ Open codec (es ++ [.inr packet]) := fun h =>
    Nat.not_lt_of_le hlimit (open_inr_iff.mp h).2.1
  have hgiven : Phase codec (es ++ [.inr packet]) [] (s.detecting packet) := by
    refine hopen.gives_up hclosed ?_ habsent
    intro other heq
    obtain rfl := Sum.inr.inj heq
    exact hnot
  have hnew : (s.detecting packet).audio.probe ≠ .confirmed := by
    rw [habsent]
    decide
  have hwritten' : Written codec [] out (s.detecting packet) :=
    hwritten.congr rfl fun hne => absurd hundecided hne
  -- the rest is what a packet does behind an answer
  obtain ⟨hanswered, haudio⟩ := audioPacket_answered hcodec hidle packet (hgiven.decided hclosed)
    (fun _ => hnew) hwritten'
  obtain ⟨htype, hprobe⟩ := (s.detecting packet).spokenFrames_frame packet
  rw [← haudio] at htype hprobe
  -- a track that was given up has no type, and so no frames
  have hsilent := spokenFrames_of_none (type_of_absent habsent) packet
  refine ⟨_, hanswered, ?_⟩
  rw [hsilent, List.map_nil, List.append_nil]
  exact hgiven.release hclosed hprobe htype s.held

/-- A packet that comes when the question has been answered. -/
theorem audioPacket_later (hcodec : s.video.codec = some codec)
    (hidle : s.started = false → s.held = [])
    (hstarted : s.started = true ↔ admitted codec es ≠ []) (hclosed : ¬ Open codec es)
    (hwritten : Written codec calls out s) (hphase : Phase codec es calls s) :
    let result := s.audioPacket packet.payloadType packet.timestamp packet.payload
    ∃ calls, Written codec calls (out ++ result.1) result.2 ∧
      Phase codec (es ++ [.inr packet]) calls result.2 := by
  intro result
  -- the answer is there already
  have hdecided := hphase.decided hclosed
  have hsame : s.detecting packet = s := by
    rw [detecting, detect_of_decided hdecided]
  obtain ⟨hanswered, haudio⟩ := audioPacket_answered hcodec hidle packet
    (by rw [hsame]; exact hdecided) (fun hun => absurd hun hdecided) (by rw [hsame]; exact hwritten)
  rw [hsame] at hanswered haudio
  have hreleased : Phase codec es (calls ++ interleave s.held []) s :=
    hphase.release hclosed rfl rfl s.held
  exact ⟨_, hanswered, hreleased.inr hclosed hstarted packet haudio⟩

/-- **Hearing a packet.** -/
theorem audioPacket_listening (h : Listening codec es out s) (packet : OtherPacket) :
    Listening codec (es ++ [.inr packet])
      (out ++ (s.audioPacket packet.payloadType packet.timestamp packet.payload).1)
      (s.audioPacket packet.payloadType packet.timestamp packet.payload).2 := by
  -- the packet belongs to no unit, so the account of the units goes on as it was
  obtain ⟨haccount, calls, hwritten, hphase⟩ := h
  refine ⟨?_, ?_⟩
  · rw [closedUnits_append, closedUnits_inr, List.append_nil]
    exact audioPacket_account haccount _ _ _
  have hstarted : s.started = true ↔ admitted codec es ≠ [] :=
    haccount.started_iff.trans (not_congr admitted_eq_nil_iff.symm)
  have hidle : s.started = false → s.held = [] := haccount.held_eq_nil
  -- the question is open: the packet confirms, leaves it open, or is the last one
  obtain ⟨hopen, hremembers, hheld, rfl⟩ | hclosed := hphase.open_or
  · have hundecided := hremembers.undecided
    obtain ⟨hcompletes, htype, hpending⟩ | ⟨hnot, hfew, hnext⟩ | ⟨hnot, hlimit, habsent⟩ :=
      detect_cases hremembers packet s.lastPts
    · exact audioPacket_confirming haccount.codec_eq hstarted hopen hundecided hheld hwritten
        hcompletes htype hpending
    · exact audioPacket_remembering (open_inr_iff.mpr ⟨hopen, hfew, hnot⟩) hundecided hheld hwritten
        hnext
    · exact audioPacket_giving_up haccount.codec_eq hidle hopen hundecided hwritten hnot hlimit
        habsent
  · exact audioPacket_later haccount.codec_eq hidle hstarted hclosed hwritten hphase

end Hearing

/-! ### A session -/

/-- The items so far, with the open unit in the buffer. -/
def Listened (codec : VideoCodec) (items : List RtpOutput) (out : Bytes) (s : RtpToTs) : Prop :=
  Listening codec (events none items) out s ∧ Holds (cut none items).2 s

/-- Detection is an invariant of the items of the session. -/
theorem listened_invariant : ItemInvariant Listened where
  codec_eq h := h.1.1.codec_eq
  new := by
    -- at the start everything is open
    intro codec video hcodec
    refine ⟨⟨(itemAccount_new hcodec).closed, [], Or.inl ⟨rfl, rfl, rfl⟩, ?_⟩,
      (itemAccount_new hcodec).current⟩
    exact Phase.undecided (open_nil codec) remembers_new rfl rfl
  -- the parameter sets of the video do not matter to the audio
  withVideo := by
    intro codec items out t video ⟨⟨haccount, calls, hwritten, hphase⟩, hholds⟩ hcodec
    exact ⟨⟨haccount.withVideo hcodec, calls, hwritten.congr rfl fun _ => rfl,
      hphase.congr rfl rfl⟩, hholds⟩
  step := by
    -- an item closes at most one unit, or brings one packet
    intro codec items out t item more t' ⟨hlistening, hholds⟩ hok
    have hstep := feedItem_events
      (fun es out t'' => Listening codec es out t'' ∧ t''.video = t.video)
      (by
        intro es out t'' current ⟨hlistening, hvideo⟩ hholds
        exact ⟨flushUnit_listening hlistening hholds, t''.flushUnit_frame.1.trans hvideo⟩)
      (by
        rintro es out t'' timestamp unit ⟨⟨haccount, calls, hwritten, hphase⟩, hvideo⟩
        exact ⟨⟨haccount.buffered timestamp unit, calls, hwritten.congr rfl fun _ => rfl,
          hphase.congr rfl rfl⟩, hvideo⟩)
      (by
        intro es out t'' packet ⟨hlistening, hvideo⟩
        obtain ⟨hsame, -, -⟩ :=
          t''.audioPacket_frame packet.payloadType packet.timestamp packet.payload
        exact ⟨audioPacket_listening hlistening packet, hsame.trans hvideo⟩)
      ⟨hlistening, rfl⟩ hholds hok
    obtain ⟨⟨hnext, hvideo⟩, hholds'⟩ := hstep
    refine ⟨⟨?_, ?_⟩, hvideo⟩
    · rw [events_concat]
      exact hnext
    · rw [cut_append, cut_singleton]
      exact hholds'

end RtpToTs

end EzvizBridge
