import EzvizBridge.Transport.AudioSession
import EzvizBridge.Transport.RtpTsStreams
import EzvizBridge.Transport.StartupQueue

/-!
# The buffers of the RTP path

Six buffers in five structures hold data that a relay has sent: the packets from before the codec is
known, the open fragment, the start-up queue of the decryptor, the open access unit, the hold queue
and the packets that may confirm an audio track. Each is checked at one place, sometimes before the
data is added and sometimes behind it. `WithinBounds` is what the checks amount to together, in
every state that a session reaches without an error (an error ends a session, see `copyAsMpegTs`).

Each structure has its own invariant, and one lemma for each method that touches its buffers:
`NalDecryptor.Counted`, `RtpNalDecryptor.Bounded`, `RtpVideo.Bounded`, `AudioTrack.Counted` and
`RtpToTs.HoldBounded`.
-/

namespace EzvizBridge

/-! ### The start-up queue -/

/-- What a held NAL was counted as when it was queued. -/
def PendingNal.counted : PendingNal → ℕ
  | .ready _ data => data.length
  | .inter _ nal _ => nal.length

namespace NalDecryptor

variable {aes : Aes128} {self self' : NalDecryptor}

/-- The bytes that wait in the queue, as counted on entry. -/
def queuedBytes (self : NalDecryptor) : ℕ := ((self.pending.getD []).map PendingNal.counted).sum

/-- The counter is that of the queue and within its bound, and only the layout with a clear NAL
header has anything in the queue. -/
structure Counted (d : NalDecryptor) : Prop where
  bytes_eq : d.pendingBytes = d.queuedBytes
  bytes_le : d.pendingBytes ≤ maxPendingBytes
  idle : headerClear d.mode = false → d.pending.getD [] = []

theorem counted_new (codec : VideoCodec) (key : Option Block) : Counted (new codec key) := by
  cases key <;> exact ⟨rfl, Nat.zero_le _, fun _ => rfl⟩

/-- Released, the queue is empty and counts nothing. -/
theorem flushPending_counted (self : NalDecryptor) : Counted (self.flushPending aes).2 :=
  ⟨rfl, Nat.zero_le _, fun _ => rfl⟩

/-- The bound is checked behind the entry: a queue beyond it is released. -/
theorem guardPending_counted (hbytes : self.pendingBytes = self.queuedBytes)
    (hmode : headerClear self.mode = true) : Counted (self.guardPending aes).2 := by
  unfold guardPending
  split
  · next hle => exact ⟨hbytes, hle, fun hidle => absurd (hidle.symm.trans hmode) (by decide)⟩
  · exact flushPending_counted _

theorem queuedBytes_concat {queue : List PendingNal} (hpending : self.pending = some queue)
    (hbytes : self.pendingBytes = self.queuedBytes) (entry : PendingNal) :
    self.pendingBytes + entry.counted = ((queue ++ [entry]).map PendingNal.counted).sum := by
  rw [hbytes, queuedBytes, hpending]
  simp

/-- A queue is kept only in a mode with a clear header. -/
theorem headerClear_of_pending {queue : List PendingNal}
    (hready : self.pending = none ∨ headerClear self.mode = true)
    (hpending : self.pending = some queue) : headerClear self.mode = true := by
  apply hready.resolve_left
  rw [hpending]
  exact Option.some_ne_none queue

/-- A NAL is put into the queue, or passed on. -/
theorem put_counted (h : Counted self) (hready : self.pending = none ∨ headerClear self.mode = true)
    (data : Bytes) : Counted (self.put aes data).2 := by
  unfold put
  cases hpending : self.pending with
  | none => exact h
  | some queue =>
    have hmode := headerClear_of_pending hready hpending
    exact guardPending_counted
      (queuedBytes_concat hpending h.bytes_eq (.ready self.stamp data)) hmode

/-- An inter slice joins the queue, which may be released by it. -/
theorem putInter_counted (h : Counted self)
    (hready : self.pending = none ∨ headerClear self.mode = true) (nal : Bytes) (header : ℕ) :
    Counted (self.putInter aes nal header).2 := by
  unfold putInter
  cases hpending : self.pending with
  | none => exact h
  | some queue =>
    have hmode := headerClear_of_pending hready hpending
    dsimp only
    set queued : NalDecryptor := { self with
      pendingBytes := self.pendingBytes + nal.length
      pending := some (queue ++ [PendingNal.inter self.stamp nal header]) }
    -- the samples decide about the release, and the counter is that of the queue either way
    obtain ⟨-, -, hmode', hpending'⟩ := sampleInter_frame aes queued nal header
    have hbytes : (queued.sampleInter aes nal header).pendingBytes = queued.pendingBytes := by
      unfold sampleInter
      split
      · dsimp only
        split <;> rfl
      · rfl
    split
    · exact flushPending_counted _
    · apply guardPending_counted
      · rw [hbytes, queuedBytes, hpending']
        exact queuedBytes_concat hpending h.bytes_eq (.inter self.stamp nal header)
      · rw [hmode']
        exact hmode

/-- The header of a NAL is settled first, and then it is put. -/
theorem emitNal_counted (h : Counted self)
    (hready : self.pending = none ∨ headerClear self.mode = true) (nal : Bytes) :
    Counted (self.emitNal aes nal).2 := by
  unfold emitNal okOf emitHint
  repeat' split
  all_goals first
    | exact h
    | exact put_counted h hready _
    | exact putInter_counted h hready _ _

/-- The queue of a mode that is no longer used is dropped empty. -/
theorem settle_counted (h : Counted self) {mode : EncryptionMode}
    (hmode : mode = self.mode ∨ self.mode = .unknown) (stamp : UInt32) :
    Counted (self.settle stamp mode) ∧
      ((self.settle stamp mode).pending = none ∨
        headerClear (self.settle stamp mode).mode = true) := by
  -- in a mode without a clear header the queue was empty
  have hqueue : headerClear mode = false → self.queuedBytes = 0 := by
    intro hclear
    have hidle : headerClear self.mode = false := by
      rcases hmode with rfl | hunknown
      · exact hclear
      · rw [hunknown]
        rfl
    rw [queuedBytes, h.idle hidle]
    rfl
  unfold settle
  cases hclear : headerClear mode with
  | true =>
    simp only [Bool.not_true, Bool.and_false, Bool.false_eq_true, if_false]
    exact ⟨⟨h.bytes_eq, h.bytes_le, fun hidle => absurd (hidle.symm.trans hclear) (by decide)⟩,
      Or.inr trivial⟩
  | false =>
    have hnone :
        (if (self.pending.isSome && !false) = true then none else self.pending) = none := by
      cases self.pending <;> rfl
    rw [hnone]
    exact ⟨⟨h.bytes_eq.trans (hqueue hclear), h.bytes_le, fun _ => rfl⟩, Or.inl rfl⟩

/-- A NAL of any type. -/
theorem feed_counted (h : Counted self) (stamp : UInt32) (nal : Bytes) :
    Counted (self.feed aes stamp nal).2 := by
  have hstamped : Counted { self with stamp := stamp } := ⟨h.bytes_eq, h.bytes_le, h.idle⟩
  rcases feed_cases aes self stamp nal with
    ⟨hfeed, -⟩ | ⟨hfeed, -⟩ | ⟨mode, hfeed, -, -, hmode⟩
  · rw [hfeed]
    exact hstamped
  · rw [hfeed]
    exact hstamped
  · rw [hfeed]
    obtain ⟨hcounted, hready⟩ := settle_counted h (hmode.imp id And.left) stamp
    exact emitNal_counted hcounted hready nal

variable (aes) in
theorem feedAll_counted (h : Counted self) (nals : List (UInt32 × Bytes)) :
    Counted (self.feedAll aes nals).2 :=
  Transducer.run_keeps Counted (fun _ nal hnal => feed_counted hnal nal.1 nal.2) h nals

end NalDecryptor

/-! ### The open fragment -/

/-- A fragment that was left open is within its bound. -/
theorem joinFragment_le {fragment rest : Option Bytes} {fu : UInt8} {start data : Bytes}
    {nals : List Bytes}
    (hjoin : joinFragment fragment fu start data = some (nals, rest)) (open_ : Bytes)
    (hopen : open_ ∈ rest) : open_.length ≤ RtpNalDecryptor.maxFragmentBytes := by
  unfold joinFragment at hjoin
  -- a fragment goes on within the bound, or is closed by its end bit
  split at hjoin
  · split at hjoin
    · cases hjoin
    · next hle =>
      split at hjoin
      · cases hjoin
        cases hopen
      · cases hjoin
        cases hopen
        exact not_lt.1 hle
  · split at hjoin
    · cases hjoin
    · cases hjoin
      cases hopen

/-- A payload leaves the open fragment within its bound. -/
theorem depacketize_le {codec : VideoCodec} {fragment rest : Option Bytes} {payload : Bytes}
    {nals : List Bytes} (hnals : depacketize codec fragment payload = some (nals, rest))
    (hle : ∀ open_ ∈ fragment, open_.length ≤ RtpNalDecryptor.maxFragmentBytes) :
    ∀ open_ ∈ rest, open_.length ≤ RtpNalDecryptor.maxFragmentBytes := by
  -- only a fragmentation unit touches the fragment
  have hkept : ∀ split : Option (List Bytes), split.map (·, fragment) = some (nals, rest) →
      rest = fragment := by
    intro split hsplit
    obtain ⟨_, -, heq⟩ := Option.map_eq_some_iff.1 hsplit
    exact (Prod.mk.inj heq).2.symm
  unfold depacketize at hnals
  -- no payload, then the layout of H.264, and then that of HEVC
  split at hnals
  · cases hnals
    exact hle
  · split at hnals
    · split at hnals
      · cases hnals
      · exact joinFragment_le hnals
    · split at hnals
      · rw [hkept _ hnals]
        exact hle
      · cases hnals
        exact hle
  · split at hnals
    · split at hnals
      · cases hnals
      · exact joinFragment_le hnals
    · split at hnals
      · rw [hkept _ hnals]
        exact hle
      · cases hnals
        exact hle
  · cases hnals
    exact hle

namespace RtpNalDecryptor

variable {aes : Aes128} {self self' : RtpNalDecryptor}

/-- The open fragment is within its bound, and so is the queue. -/
structure Bounded (d : RtpNalDecryptor) : Prop where
  fragment_le : ∀ fragment ∈ d.fragment, fragment.length ≤ maxFragmentBytes
  counted : d.nal.Counted

theorem bounded_new (codec : VideoCodec) (key : Option Block) : Bounded (new codec key) :=
  ⟨fun _ h => (nomatch h), NalDecryptor.counted_new codec key⟩

theorem feed_bounded (h : Bounded self) {stamp : UInt32} {payload : Bytes} {chunks : Chunks}
    (hok : self.feed aes stamp payload = (.ok chunks, self')) : Bounded self' := by
  obtain ⟨nals, fragment, hnals, hfeed, -, hfragment⟩ := feed_ok hok
  have hcounted := NalDecryptor.feedAll_counted aes h.counted (stampedNals stamp nals)
  rw [hfeed] at hcounted
  refine ⟨?_, hcounted⟩
  rw [hfragment]
  exact depacketize_le hnals h.fragment_le

/-- A packet of the video. -/
theorem routeStep_bounded (h : Bounded self) {rtp : RtpPacket} {items : List RtpOutput}
    (hok : self.routeStep aes rtp = (.ok items, self')) : Bounded self' := by
  unfold routeStep at hok
  split at hok
  · cases hok
  · next chunks decryptor hfeed =>
    cases hok
    exact feed_bounded h hfeed

/-- The packets of the video, one after the other. -/
theorem run_bounded (h : Bounded self) {rtps : List RtpPacket} {items : List RtpOutput}
    (hrun : Transducer.run (routeStep aes) self rtps = (.ok items, self')) : Bounded self' :=
  Transducer.run_ok_keeps Bounded (fun _ _ _ _ hd hok => routeStep_bounded hd hok) h hrun

end RtpNalDecryptor

/-! ### The packets from before the codec is known -/

namespace RtpVideo

open RtpNalDecryptor (routeStep)

variable {aes : Aes128} {self self' : RtpVideo}

/-- The packets that wait for a codec are counted and within both bounds. -/
structure Bounded (v : RtpVideo) : Prop where
  packets_le : v.buffered.length ≤ maxCodecProbePackets
  bytes_eq : v.bufferedBytes = (v.buffered.map List.length).sum
  bytes_le : v.bufferedBytes ≤ maxPendingBytes
  decryptor : ∀ decryptor ∈ v.decryptor, decryptor.Bounded

theorem bounded_withKey (key : Option Block) : Bounded (withKey key) :=
  ⟨Nat.zero_le _, rfl, Nat.zero_le _, fun _ h => (nomatch h)⟩

/-- The depacketizer is replaced by one that is within its bounds. -/
theorem Bounded.withDecryptor (h : Bounded self) {decryptor : RtpNalDecryptor}
    (hdecryptor : decryptor.Bounded) : Bounded { self with decryptor := some decryptor } :=
  ⟨h.packets_le, h.bytes_eq, h.bytes_le, fun _ hd => by cases hd; exact hdecryptor⟩

/-- A packet is routed to the depacketizer, or handed on. -/
theorem route_bounded (h : Bounded self) {rtp : RtpPacket} {video : UInt8}
    {items : List RtpOutput} (hok : self.route aes rtp video = (.ok items, self')) :
    Bounded self' := by
  by_cases htype : rtp.payloadType = video
  · cases hdec : self.decryptor with
    | none =>
      rw [route, if_neg (not_not.2 htype), hdec] at hok
      cases hok
    | some decryptor =>
      obtain ⟨decryptor', hstep, rfl⟩ := route_ok hdec htype hok
      exact h.withDecryptor (RtpNalDecryptor.routeStep_bounded (h.decryptor _ hdec) hstep)
  · rw [route, if_pos htype] at hok
    cases hok
    exact h

theorem feed_bounded (h : Bounded self) {packet : Bytes} {items : List RtpOutput}
    (hok : self.feed aes packet = (.ok items, self')) : Bounded self' := by
  unfold feed at hok
  -- a packet that is no RTP packet is an error
  split at hok
  · cases hok
  · split at hok
    · cases hok
    · next rtp _ =>
      split at hok
      · exact route_bounded h hok
      · dsimp only at hok
        split at hok
        · cases hok
        · next hroom =>
          rw [not_or] at hroom
          -- the packet fits: it joins the buffer
          have hjoined : self.bufferedBytes + packet.length =
              ((self.buffered ++ [packet]).map List.length).sum := by
            rw [h.bytes_eq]
            simp
          split at hok
          · cases hok
            refine ⟨?_, hjoined, not_lt.1 hroom.1, h.decryptor⟩
            rw [List.length_append, List.length_singleton]
            exact not_le.1 hroom.2
          · next codec _ =>
            -- the buffer is emptied into a new decryptor
            obtain ⟨decryptor', _, hrun, -, rfl⟩ := replay_ok rfl hok
            exact ⟨Nat.zero_le _, rfl, Nat.zero_le _, fun _ hd => by
              cases hd
              exact RtpNalDecryptor.run_bounded (RtpNalDecryptor.bounded_new codec self.key) hrun⟩

end RtpVideo

/-! ### The packets that may confirm an audio track -/

namespace AudioTrack

variable {self : AudioTrack}

/-- The access units in the pending packets. -/
def pendingUnits (pending : List (UInt32 × Bytes × ℤ)) : ℕ :=
  (pending.map fun packet => ((Aac.accessUnits packet.2.1).getD []).length).sum

/-- While the question is open, the candidate counts the units of the pending packets, and there are
too few of them to confirm it. -/
structure Counted (track : AudioTrack) : Prop where
  units_eq : track.probe = .undecided →
    pendingUnits track.pending = (track.candidate.map Prod.snd).getD 0
  units_lt : track.probe = .undecided → pendingUnits track.pending < confirmations

/-- Once the probe has ended its counters say nothing. -/
theorem counted_of_decided (h : self.probe ≠ .undecided) : Counted self :=
  ⟨fun hopen => absurd hopen h, fun hopen => absurd hopen h⟩

/-- A payload that is valid has as many units as it is counted for. -/
theorem length_of_valid {payload : Bytes} {channels : UInt8} {frames : ℕ}
    (hvalid : valid payload = some (channels, frames)) :
    ((Aac.accessUnits payload).getD []).length = frames := by
  unfold valid at hvalid
  split at hvalid
  · cases hvalid
  · next units hunits =>
    split at hvalid
    · cases hvalid
    · split at hvalid
      · cases hvalid
        rw [hunits]
        rfl
      · cases hvalid

/-- The candidate counts the units of the pending packets, the one that is considered included. -/
theorem consider_units (self : AudioTrack)
    (hunits : pendingUnits self.pending = (self.candidate.map Prod.snd).getD 0)
    (payloadType : UInt8) (timestamp : UInt32) (payload : Bytes) (videoPts : ℤ) :
    let next := self.consider payloadType timestamp payload videoPts
    pendingUnits next.pending = (next.candidate.map Prod.snd).getD 0 := by
  unfold consider
  cases hvalid : valid payload with
  -- a payload that is not valid ends the run of the candidate
  | none => rfl
  | some value =>
    obtain ⟨channels, frames⟩ := value
    have hframes := length_of_valid hvalid
    have hone : pendingUnits [(timestamp, payload, videoPts)] = frames := by
      rw [pendingUnits, List.map_singleton, List.sum_singleton]
      exact hframes
    cases hcandidate : self.candidate with
    | none => exact hone
    | some candidate =>
      dsimp only
      -- a packet of the same run is appended, and another one starts a new run
      split
      · rw [hcandidate] at hunits
        rw [pendingUnits, List.map_append, List.sum_append]
        exact congrArg₂ (· + ·) hunits hone
      · exact hone

/-- The probe stops before it holds too many units. -/
theorem detect_counted (h : Counted self) (payloadType : UInt8) (timestamp : UInt32)
    (payload : Bytes) (videoPts : ℤ) :
    Counted (self.detect payloadType timestamp payload videoPts) := by
  -- the question is open, or the track stays as it is
  by_cases hopen : self.probe = .undecided
  · unfold detect
    rw [if_neg (not_not.2 hopen)]
    dsimp only
    have hunits := consider_units { self with probed := self.probed + 1 } (h.units_eq hopen)
      payloadType timestamp payload videoPts
    dsimp only at hunits
    generalize ({ self with probed := self.probed + 1 } : AudioTrack).consider payloadType timestamp
      payload videoPts = next at hunits ⊢
    cases hcandidate : next.candidate with
    | none =>
      -- no run is open, so nothing is pending
      rw [hcandidate] at hunits
      dsimp only
      split
      · exact counted_of_decided (giveUp_decided next)
      · refine ⟨fun _ => ?_, fun _ => ?_⟩
        · rw [hcandidate]
          exact hunits
        · rw [hunits]
          decide
    | some candidate =>
      rw [hcandidate] at hunits
      dsimp only
      split
      · exact counted_of_decided (by simp [probe])
      -- too few units are pending for the decision
      · next hfew =>
        split
        · exact counted_of_decided (giveUp_decided next)
        · refine ⟨fun _ => ?_, fun _ => ?_⟩
          · rw [hcandidate]
            exact hunits
          · rw [hunits]
            exact not_le.1 hfew
  · rw [detect_of_decided hopen]
    exact h

end AudioTrack

/-! ### The hold queue and the open unit -/

namespace RtpToTs

variable {aes : Aes128} {s s' : RtpToTs}

/-- The bytes of the held units. -/
def heldBytes (s : RtpToTs) : ℕ := (s.held.map fun unit => unit.data.length).sum

/-- While the audio question is open, few units are held, none of them late after the first. -/
structure HoldBounded (s : RtpToTs) : Prop where
  units_lt : s.audio.probe = .undecided → s.held.length < maxHeldUnits
  bytes_lt : s.audio.probe = .undecided → s.heldBytes < maxHeldBytes
  span_lt : s.audio.probe = .undecided → ∀ first ∈ s.held.head?, ∀ unit ∈ s.held,
    unit.pts - first.pts < audioWait

/-- An empty queue is within its bounds. -/
theorem holdBounded_nil (h : s.held = []) : HoldBounded s := by
  refine ⟨fun _ => ?_, fun _ => ?_, fun _ first hfirst => ?_⟩
  · rw [h]
    decide
  · rw [heldBytes, h]
    decide
  · rw [h] at hfirst
    cases hfirst

/-- Once the question is answered, no bound is asked for. -/
theorem holdBounded_of_decided (h : s.audio.probe ≠ .undecided) : HoldBounded s :=
  ⟨fun hopen => absurd hopen h, fun hopen => absurd hopen h, fun hopen => absurd hopen h⟩

/-- The bounds depend on the queue, and on whether the question is still open. -/
theorem HoldBounded.of_held (h : HoldBounded s) (hheld : s'.held = s.held)
    (hopen : s'.audio.probe = .undecided → s.audio.probe = .undecided) : HoldBounded s' := by
  refine ⟨fun hu => ?_, fun hu => ?_, fun hu => ?_⟩
  · rw [hheld]
    exact h.units_lt (hopen hu)
  · rw [heldBytes, hheld]
    exact h.bytes_lt (hopen hu)
  · rw [hheld]
    exact h.span_lt (hopen hu)

/-- A release empties the queue or leaves everything as it is. -/
theorem releaseHeld_holdBounded (h : HoldBounded s) (frames : List (ℤ × Bytes)) :
    HoldBounded (s.releaseHeld frames).2 := by
  unfold releaseHeld
  split
  · exact h
  · split
    · exact h
    · exact holdBounded_nil rfl

/-- The bounds are checked behind the entry: a queue that outgrows one answers the question. -/
theorem boundHeld_holdBounded {held : List HeldUnit} (unit : HeldUnit)
    (hheld : s.held = held ++ [unit])
    (hspan : s.audio.probe = .undecided → ∀ first ∈ held.head?, ∀ earlier ∈ held,
      earlier.pts - first.pts < audioWait) :
    HoldBounded (s.boundHeld unit.pts) := by
  unfold boundHeld
  dsimp only
  split
  · exact holdBounded_of_decided (AudioTrack.giveUp_decided s.audio)
  · next hwithin =>
    have hsmall : s.audio.probe = .undecided →
        ¬ (((s.held.head?.map fun first => unit.pts - first.pts).getD 0 ≥ audioWait) ∨
          s.held.length ≥ maxHeldUnits ∨
          (s.held.map fun unit => unit.data.length).sum ≥ maxHeldBytes) :=
      fun hopen hbig => hwithin ⟨hopen, hbig⟩
    -- the number of units, their bytes, and their span
    refine ⟨fun hopen => ?_, fun hopen => ?_, fun hopen first hfirst earlier hearlier => ?_⟩
    · exact not_le.1 fun hbig => hsmall hopen (Or.inr (Or.inl hbig))
    · exact not_le.1 fun hbig => hsmall hopen (Or.inr (Or.inr hbig))
    · have hwait : unit.pts - first.pts < audioWait := by
        have hnot := fun hbig => hsmall hopen (Or.inl hbig)
        rw [Option.mem_def.1 hfirst] at hnot
        exact not_le.1 hnot
      rw [hheld] at hearlier hfirst
      rcases List.mem_append.1 hearlier with hold | hnew
      · -- a unit that was held before was checked on its own arrival, against the same first one
        apply hspan hopen first _ earlier hold
        cases held with
        | nil => cases hold
        | cons head rest => exact hfirst
      · rw [List.mem_singleton.1 hnew]
        exact hwait

/-- The bounds are checked when the unit is queued. -/
theorem flushUnit_holdBounded (h : HoldBounded s) : HoldBounded (s.flushUnit).2 := by
  unfold flushUnit
  split
  · exact h
  · dsimp only
    split
    · exact h.of_held rfl id
    · split
      · exact h.of_held rfl id
      · apply releaseHeld_holdBounded
        exact boundHeld_holdBounded ⟨_, _, _⟩ rfl h.span_lt

/-- An audio packet queues nothing. -/
theorem audioPacket_holdBounded (h : HoldBounded s) (payloadType : UInt8) (timestamp : UInt32)
    (payload : Bytes) : HoldBounded (s.audioPacket payloadType timestamp payload).2 := by
  -- the question is still open only if it was open before, and then the queue has not moved
  have hdetected : HoldBounded
      { s with audio := s.audio.detect payloadType timestamp payload s.lastPts } := by
    refine h.of_held rfl fun hopen => ?_
    by_contra hdecided
    dsimp only at hopen
    rw [AudioTrack.detect_of_decided hdecided] at hopen
    exact hdecided hopen
  unfold audioPacket
  dsimp only
  split
  · exact hdetected
  · next hprobe =>
    -- confirmed by this packet
    split
    · apply holdBounded_of_decided
      rw [AudioTrack.discardPending_probe, hprobe]
      decide
    · apply releaseHeld_holdBounded
      apply holdBounded_of_decided
      rw [AudioTrack.drainPending_probe, hprobe]
      decide
  · have hreleased := releaseHeld_holdBounded hdetected []
    split
    · exact hreleased
    · have hprobe := AudioTrack.frames_probe
        (releaseHeld { s with audio := s.audio.detect payloadType timestamp payload s.lastPts }
          []).2.audio payloadType timestamp payload
        (releaseHeld { s with audio := s.audio.detect payloadType timestamp payload s.lastPts }
          []).2.lastPts
      split <;> exact hreleased.of_held rfl hprobe.symm.trans

/-- The probe that is given up counts no more. -/
theorem boundHeld_counted (s : RtpToTs) (pts : ℤ) (h : s.audio.Counted) :
    (s.boundHeld pts).audio.Counted := by
  unfold boundHeld
  dsimp only
  split
  · exact AudioTrack.counted_of_decided (AudioTrack.giveUp_decided s.audio)
  · exact h

/-- Closing a unit leaves the probe alone, or gives it up. -/
theorem flushUnit_counted (h : s.audio.Counted) : (s.flushUnit).2.audio.Counted := by
  unfold flushUnit
  split
  · exact h
  · dsimp only
    split
    · exact h
    · split
      · exact h
      · rw [releaseHeld_frame]
        exact boundHeld_counted _ _ h

/-- The packet is counted by the probe. -/
theorem audioPacket_counted (h : s.audio.Counted) (payloadType : UInt8) (timestamp : UInt32)
    (payload : Bytes) : (s.audioPacket payloadType timestamp payload).2.audio.Counted := by
  have hdetect := AudioTrack.detect_counted h payloadType timestamp payload s.lastPts
  unfold audioPacket
  dsimp only
  -- still open, confirmed by this packet, or answered before
  split
  · exact hdetect
  · next hprobe =>
    split
    · apply AudioTrack.counted_of_decided
      rw [AudioTrack.discardPending_probe, hprobe]
      decide
    · rw [releaseHeld_frame]
      apply AudioTrack.counted_of_decided
      rw [AudioTrack.drainPending_probe, hprobe]
      decide
  · next hopen _ =>
    have hdecided : (s.audio.detect payloadType timestamp payload s.lastPts).probe ≠ .undecided :=
      hopen
    split
    · rw [releaseHeld_frame]
      exact hdetect
    · split <;>
      · apply AudioTrack.counted_of_decided
        rw [AudioTrack.frames_probe, releaseHeld_frame]
        exact hdecided

/-- The unit is empty behind a flush, or was not open. -/
theorem flushUnit_unit_le (h : s.unit.length ≤ maxUnitBytes) :
    (s.flushUnit).2.unit.length ≤ maxUnitBytes := by
  obtain ⟨-, ⟨-, hsame⟩ | ⟨-, hunit⟩⟩ := s.flushUnit_frame
  · rw [hsame]
    exact h
  · rw [hunit]
    exact Nat.zero_le _

/-- The bound of the open unit is checked behind the item's data, and a breach is an error. -/
theorem feedItem_unit_le (h : s.unit.length ≤ maxUnitBytes) {item : RtpOutput} {out : Bytes}
    (hok : s.feedItem item = (.ok out, s')) : s'.unit.length ≤ maxUnitBytes := by
  cases item with
  | other payloadType timestamp payload =>
    have hstate : (s.audioPacket payloadType timestamp payload).2 = s' := (Prod.mk.inj hok).2
    rw [← hstate, (audioPacket_frame s payloadType timestamp payload).2.1]
    exact h
  | video timestamp marker data =>
    rw [feedItem_video] at hok
    dsimp only at hok
    -- the open unit is closed first when the timestamp changes
    have hswitched : (if s.unitTimestamp.any (· ≠ timestamp) then s.flushUnit
        else ([], s)).2.unit.length ≤ maxUnitBytes := by
      split
      · exact flushUnit_unit_le h
      · exact h
    generalize (if s.unitTimestamp.any (· ≠ timestamp) then s.flushUnit else ([], s)) = switched
      at hok hswitched
    generalize hextend : (if data = [] then switched.2
        else { switched.2 with
          unitTimestamp := some timestamp
          unit := switched.2.unit ++ data }) = extended at hok
    -- a unit that outgrows its bound is an error
    by_cases hbig : data ≠ [] ∧ extended.unit.length > maxUnitBytes
    · rw [if_pos hbig] at hok
      cases hok
    · rw [if_neg hbig] at hok
      have hextended : extended.unit.length ≤ maxUnitBytes := by
        by_cases hdata : data = []
        · rw [← hextend, if_pos hdata]
          exact hswitched
        · exact not_lt.1 fun hlarge => hbig ⟨hdata, hlarge⟩
      rw [← (Prod.mk.inj hok).2]
      split
      · exact flushUnit_unit_le hextended
      · exact hextended

/-! ### All of them -/

/-- **Every buffer of the RTP path is within its bound.** -/
structure WithinBounds (s : RtpToTs) : Prop where
  packets : s.video.buffered.length ≤ RtpVideo.maxCodecProbePackets
  packetBytes_eq : s.video.bufferedBytes = (s.video.buffered.map List.length).sum
  packetBytes_le : s.video.bufferedBytes ≤ RtpVideo.maxPendingBytes
  fragment : ∀ decryptor ∈ s.video.decryptor, ∀ fragment ∈ decryptor.fragment,
    fragment.length ≤ RtpNalDecryptor.maxFragmentBytes
  queueBytes_eq : ∀ decryptor ∈ s.video.decryptor,
    decryptor.nal.pendingBytes = decryptor.nal.queuedBytes
  queueBytes_le : ∀ decryptor ∈ s.video.decryptor,
    decryptor.nal.pendingBytes ≤ NalDecryptor.maxPendingBytes
  unit : s.unit.length ≤ maxUnitBytes
  held : s.audio.probe = .undecided → s.held.length < maxHeldUnits
  heldBytes : s.audio.probe = .undecided → s.heldBytes < maxHeldBytes
  span : s.audio.probe = .undecided → ∀ first ∈ s.held.head?, ∀ unit ∈ s.held,
    unit.pts - first.pts < audioWait
  audio : s.audio.probe = .undecided →
    AudioTrack.pendingUnits s.audio.pending < AudioTrack.confirmations
  released : s.audio.probe ≠ .undecided → s.started = true → s.held = []

/-- What each of the structures keeps to itself. -/
structure Kept (s : RtpToTs) : Prop where
  video : s.video.Bounded
  queue : Hold s
  hold : HoldBounded s
  track : s.audio.Counted
  unit_le : s.unit.length ≤ maxUnitBytes

/-- A new session holds nothing. -/
theorem kept_new (key : Option Block) : Kept (new (RtpVideo.withKey key)) where
  video := RtpVideo.bounded_withKey key
  queue := hold_new _
  hold := holdBounded_nil rfl
  track := ⟨fun _ => rfl, fun _ => Nat.zero_lt_succ 7⟩
  unit_le := Nat.zero_le _

/-- An item that does not fail. -/
theorem feedItem_kept (h : Kept s) {item : RtpOutput} {out : Bytes}
    (hok : s.feedItem item = (.ok out, s')) : Kept s' := by
  have hstate : s' = (s.feedItem item).2 := (congrArg Prod.snd hok).symm
  have hvideo : (s.feedItem item).2.video = s.video := by
    apply feedItem_preserves (fun t => t.video = s.video)
    · exact fun t ht => t.flushUnit_frame.1.trans ht
    · exact fun _ _ _ ht => ht
    · exact fun t payloadType timestamp payload ht =>
        (t.audioPacket_frame payloadType timestamp payload).1.trans ht
    · rfl
  -- the video, the queue, the bounds of the queue, the track and the open unit
  refine ⟨?_, ?_, ?_, ?_, feedItem_unit_le h.unit_le hok⟩
  · rw [hstate, hvideo]
    exact h.video
  · rw [hstate]
    exact feedItem_hold h.queue item
  · rw [hstate]
    exact feedItem_preserves HoldBounded (fun _ => flushUnit_holdBounded)
      (fun _ _ _ ht => ht.of_held rfl id)
      (fun _ _ _ _ ht => audioPacket_holdBounded ht _ _ _) h.hold item
  · rw [hstate]
    exact feedItem_preserves (fun t => t.audio.Counted) (fun _ => flushUnit_counted)
      (fun _ _ _ ht => ht) (fun _ _ _ _ ht => audioPacket_counted ht _ _ _) h.track item

/-- A packet that does not fail. -/
theorem feed_kept (h : Kept s) {packet : Bytes} {out : Bytes}
    (hok : s.feed aes packet = (.ok out, s')) : Kept s' := by
  unfold feed at hok
  split at hok
  · cases hok
  · next items video hvideo =>
    have hcodec : s.started = true → video.codec.isSome = true := by
      intro hs
      have hsome : (s.video.feed aes packet).2.codec.isSome = true :=
        feed_codec_isSome (h.queue.known hs) packet
      rwa [hvideo] at hsome
    have hstart : Kept { s with video := video } :=
      ⟨RtpVideo.feed_bounded h.video hvideo, ⟨h.queue.idle, hcodec, h.queue.drained⟩,
        h.hold.of_held rfl id, h.track, h.unit_le⟩
    exact Transducer.run_ok_keeps Kept (fun _ _ _ _ ht hitem => feedItem_kept ht hitem) hstart hok

/-- **A relay cannot make the RTP path grow without bound.** In every state that a session reaches
with successful feeds, whatever the packets are, every buffer is within its bound. -/
theorem buffers_within_bounds (aes : Aes128) (key : Option Block) (packets : List Bytes)
    (out : Bytes) (s : RtpToTs)
    (hrun : Transducer.run (feed aes) (new (RtpVideo.withKey key)) packets = (.ok out, s)) :
    WithinBounds s := by
  have h : Kept s :=
    Transducer.run_ok_keeps Kept (fun _ _ _ _ ht hok => feed_kept ht hok) (kept_new key) hrun
  exact {
    packets := h.video.packets_le
    packetBytes_eq := h.video.bytes_eq
    packetBytes_le := h.video.bytes_le
    fragment := fun decryptor hd => (h.video.decryptor decryptor hd).fragment_le
    queueBytes_eq := fun decryptor hd => (h.video.decryptor decryptor hd).counted.bytes_eq
    queueBytes_le := fun decryptor hd => (h.video.decryptor decryptor hd).counted.bytes_le
    unit := h.unit_le
    held := h.hold.units_lt
    heldBytes := h.hold.bytes_lt
    span := h.hold.span_lt
    audio := h.track.units_lt
    released := fun hdecided _ => h.queue.drained hdecided }

/-- A session with a key picture, two slices and three units of audio behind it. The last slice
comes in fragments, of which the second is lost. -/
def sampleRelay : List Bytes :=
  [RtpVideo.samplePacket true 3000 [0x65, 0x88], audioSample 0 2,
    RtpVideo.samplePacket true 6000 [0x41, 0x9a, 0x01], audioSample 2048 1,
    RtpVideo.samplePacket true 9000 [0x41, 0x9a, 0x02],
    RtpVideo.samplePacket false 12000 [0x5c, 0x81, 0x9a, 0x03]]

/-- The three access units are held back, the audio is not yet believed, and a fragment is open. -/
theorem buffers_within_bounds_sample :
    ∃ out s, Transducer.run (feed RtpVideo.noCipher) (new (RtpVideo.withKey none)) sampleRelay =
        (.ok out, s) ∧
      s.held.length = 3 ∧ AudioTrack.pendingUnits s.audio.pending = 3 ∧
      (∃ decryptor ∈ s.video.decryptor, decryptor.fragment = some [0x41, 0x9a, 0x03]) ∧
      WithinBounds s := by
  set s := (Transducer.run (feed RtpVideo.noCipher) (new (RtpVideo.withKey none)) sampleRelay).2
    with hs
  have hrun : Transducer.run (feed RtpVideo.noCipher) (new (RtpVideo.withKey none)) sampleRelay =
      (.ok [], s) := Prod.ext (by rfl) hs.symm
  have hheld : s.held.length = 3 := by decide +kernel
  have haudio : AudioTrack.pendingUnits s.audio.pending = 3 := by decide +kernel
  have hfragment : s.video.decryptor.map (·.fragment) = some (some [0x41, 0x9a, 0x03]) := by
    decide +kernel
  obtain ⟨decryptor, hdecryptor, hopen⟩ := Option.map_eq_some_iff.mp hfragment
  exact ⟨[], s, hrun, hheld, haudio, ⟨decryptor, hdecryptor, hopen⟩,
    buffers_within_bounds RtpVideo.noCipher none sampleRelay [] s hrun⟩

end RtpToTs

end EzvizBridge
