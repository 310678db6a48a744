import Mathlib.Data.List.DropRight
import EzvizBridge.Transport.Aac
import EzvizBridge.Transport.Video

/-!
# What the audio probe remembers

`AudioTrack::detect` keeps a candidate type, a count and a list of packets. What these stand for can
be said of the packets heard so far alone: `runOf` is the run of packets of one type at their end,
each of which reads as audio, and the candidate is the type whose run is not empty
(`Remembers`). `detect_cases` is all that one packet can do to a track that is still undecided; the
track is confirmed exactly when the packet completes a run of eight units (`Completes`).

The second half of the module says what `frames` makes of a packet of the confirmed type: one ADTS
frame for each unit, in order (`Carried`).
-/

namespace EzvizBridge

/-! ### Payloads -/

namespace Aac

/-- The Access Units of a payload; none if it is no AAC packet. -/
def unitsIn (payload : Bytes) : List Bytes := (accessUnits payload).getD []

/-- The payload is an AAC packet, and every unit in it opens with a channel element. -/
def readsAsAudio (payload : Bytes) : Bool :=
  (accessUnits payload).any fun units => units.all fun unit => (channels unit).isSome

theorem accessUnits_ne_nil {payload : Bytes} {units : List Bytes}
    (h : accessUnits payload = some units) : units ≠ [] := by
  obtain ⟨tagged, -, rfl, hne, -, -⟩ := (accessUnits_eq_some_iff payload units).mp h
  exact fun hnil => hne (List.map_eq_nil_iff.mp hnil)

end Aac

namespace AudioTrack

open Aac

/-- `valid` accepts what reads as audio, and counts its units. -/
theorem valid_of_readsAsAudio {payload : Bytes} (h : readsAsAudio payload = true) :
    ∃ first, valid payload = some (first, (unitsIn payload).length) := by
  unfold readsAsAudio at h
  unfold valid unitsIn
  cases hunits : accessUnits payload with
  | none =>
    rw [hunits] at h
    cases h
  | some units =>
    rw [hunits, Option.any_some] at h
    match units, accessUnits_ne_nil hunits, h with
    | unit :: units, _, h =>
      -- the first unit names the channels like all the others
      have hfirst : (Aac.channels unit).isSome = true :=
        List.all_eq_true.mp h unit List.mem_cons_self
      obtain ⟨first, hfirst⟩ := Option.isSome_iff_exists.mp hfirst
      refine ⟨first, ?_⟩
      simp only [List.head?_cons, Option.bind_some, hfirst, h, if_true, Option.getD_some]

/-- `valid` refuses everything else. -/
theorem valid_of_not_readsAsAudio {payload : Bytes} (h : readsAsAudio payload = false) :
    valid payload = none := by
  unfold readsAsAudio at h
  unfold valid
  cases hunits : accessUnits payload with
  | none => rfl
  | some units =>
    rw [hunits, Option.any_some] at h
    dsimp only
    split
    · rfl
    · rw [h]
      rfl

/-! ### The run at the end of the packets heard -/

/-- The packets of one type at the end of a sequence, as far back as each of them is of this type
and reads as audio. -/
def runOf (type : UInt8) (packets : List OtherPacket) : List OtherPacket :=
  packets.rtakeWhile fun packet => packet.payloadType = type && readsAsAudio packet.payload

/-- The units that packets carry. -/
def audioUnits (packets : List OtherPacket) : List Bytes :=
  packets.flatMap fun packet => unitsIn packet.payload

/-- `packet`, behind the packets `seen`, completes a run of enough units. -/
def Completes (seen : List OtherPacket) (packet : OtherPacket) : Prop :=
  confirmations ≤ (audioUnits (runOf packet.payloadType (seen ++ [packet]))).length

variable {seen : List OtherPacket} {packet : OtherPacket} {type : UInt8}

/-- A packet that reads as audio extends the run of its own type and ends every other one. -/
theorem runOf_concat (h : readsAsAudio packet.payload = true) (type : UInt8) :
    runOf type (seen ++ [packet]) =
      if packet.payloadType = type then runOf type seen ++ [packet] else [] := by
  rw [runOf, List.rtakeWhile_concat, h, Bool.and_true]
  simp only [decide_eq_true_eq, runOf]

theorem runOf_concat_of_foreign (h : readsAsAudio packet.payload = false) (type : UInt8) :
    runOf type (seen ++ [packet]) = [] := by
  rw [runOf, List.rtakeWhile_concat_neg]
  simp [h]

theorem length_audioUnits_concat (run : List OtherPacket) :
    (audioUnits (run ++ [packet])).length =
      (audioUnits run).length + (unitsIn packet.payload).length := by
  rw [audioUnits, List.flatMap_append, List.length_append, List.flatMap_singleton]
  rfl

/-- What an undecided track remembers of the packets `seen`: their number and, if a run is open at
their end, its type, its units and its packets. -/
structure Remembers (seen : List OtherPacket) (track : AudioTrack) : Prop where
  undecided : track.probe = .undecided
  probed : track.probed = seen.length
  run : (track.candidate = none ∧ track.pending = [] ∧ ∀ type, runOf type seen = []) ∨
    ∃ type, track.candidate = some (type, (audioUnits (runOf type seen)).length) ∧
      track.pending.map (fun held => ⟨type, held.1, held.2.1⟩) = runOf type seen ∧
      ∀ other, other ≠ type → runOf other seen = []

theorem remembers_new : Remembers [] {} :=
  ⟨rfl, rfl, Or.inl ⟨rfl, rfl, fun _ => rfl⟩⟩

/-- `consider` writes the candidate and the pending packets, and nothing else. -/
theorem consider_frame (self : AudioTrack) (payloadType : UInt8) (timestamp : UInt32)
    (payload : Bytes) (videoPts : ℤ) :
    self.consider payloadType timestamp payload videoPts = { self with
      candidate := (self.consider payloadType timestamp payload videoPts).candidate
      pending := (self.consider payloadType timestamp payload videoPts).pending } := by
  unfold consider
  split
  · rfl
  · split
    · split <;> rfl
    · rfl

/-- A track that gives up is absent. -/
theorem giveUp_absent {self : AudioTrack} (h : self.probe = .undecided) :
    self.giveUp.probe = .absent := by
  have hnone : self.payloadType.isSome = false := by
    by_contra hsome
    rw [Bool.not_eq_false] at hsome
    rw [probe, hsome] at h
    cases h
  have hcleared : ({ self with pending := [] } : AudioTrack).probe = .undecided :=
    (probe_congr rfl rfl).trans h
  unfold giveUp
  simp only [hcleared, if_true]
  simp [probe, hnone]

/-- The candidate behind one more packet is the run at the new end. -/
theorem consider_run {self : AudioTrack} (h : Remembers seen self) (packet : OtherPacket)
    (videoPts : ℤ) :
    let next := ({ self with probed := self.probed + 1 } : AudioTrack).consider packet.payloadType
      packet.timestamp packet.payload videoPts
    (next.candidate = none ∧ next.pending = [] ∧ (∀ type, runOf type (seen ++ [packet]) = [])) ∨
    (next.candidate = some (packet.payloadType,
        (audioUnits (runOf packet.payloadType (seen ++ [packet]))).length) ∧
      next.pending.map (fun held => ⟨packet.payloadType, held.1, held.2.1⟩) =
        runOf packet.payloadType (seen ++ [packet]) ∧
      ∀ other, other ≠ packet.payloadType → runOf other (seen ++ [packet]) = []) := by
  intro next
  -- a payload that reads as no audio ends every run
  cases hreads : readsAsAudio packet.payload with
  | false =>
    left
    have hnext :
        next = { self with probed := self.probed + 1, candidate := none, pending := [] } := by
      simp only [next, consider, valid_of_not_readsAsAudio hreads]
    rw [hnext]
    exact ⟨rfl, rfl, runOf_concat_of_foreign hreads⟩
  | true =>
    right
    obtain ⟨first, hvalid⟩ := valid_of_readsAsAudio hreads
    have hrun : runOf packet.payloadType (seen ++ [packet]) =
        runOf packet.payloadType seen ++ [packet] := by
      rw [runOf_concat hreads, if_pos rfl]
    have hothers : ∀ other, other ≠ packet.payloadType → runOf other (seen ++ [packet]) = [] := by
      intro other hne
      rw [runOf_concat hreads, if_neg hne.symm]
    rw [hrun, length_audioUnits_concat]
    -- whether the packet continues the candidate's run or opens one of its own
    by_cases hsame : ∃ count, self.candidate = some (packet.payloadType, count)
    · obtain ⟨count, hcandidate⟩ := hsame
      obtain ⟨hnone, -⟩ | ⟨type, hsome, hpending, -⟩ := h.run
      · rw [hnone] at hcandidate
        cases hcandidate
      · obtain ⟨rfl, rfl⟩ := Prod.mk.inj (Option.some.inj (hsome.symm.trans hcandidate))
        have hnext : next = { self with
            probed := self.probed + 1
            candidate := some (packet.payloadType,
              (audioUnits (runOf packet.payloadType seen)).length + (unitsIn packet.payload).length)
            pending := self.pending ++ [(packet.timestamp, packet.payload, videoPts)] } := by
          simp only [next, consider, hvalid, hcandidate, if_true]
        rw [hnext]
        refine ⟨rfl, ?_, hothers⟩
        show (self.pending ++ [_]).map _ = _
        rw [List.map_append, hpending]
        rfl
    · have hnil : runOf packet.payloadType seen = [] := by
        obtain ⟨-, -, hnone⟩ | ⟨type, hsome, -, hother⟩ := h.run
        · exact hnone _
        · exact hother _ fun heq => hsame ⟨_, heq ▸ hsome⟩
      have hnext : next = { self with
          probed := self.probed + 1
          candidate := some (packet.payloadType, (unitsIn packet.payload).length)
          pending := [(packet.timestamp, packet.payload, videoPts)] } := by
        simp only [next, consider, hvalid]
        cases hcandidate : self.candidate with
        | none => rfl
        | some candidate =>
          have hne : candidate.1 ≠ packet.payloadType := by
            intro heq
            exact hsame ⟨candidate.2, by rw [hcandidate, ← heq]⟩
          simp only [if_neg hne]
      rw [hnext, hnil]
      refine ⟨?_, rfl, hothers⟩
      rw [audioUnits, List.flatMap_nil, List.length_nil, Nat.zero_add]

/-- **One packet of the probe.** It confirms the track if it completes a run; otherwise the track
gives up at the 400th packet, and before that only remembers it. -/
theorem detect_cases {self : AudioTrack} (h : Remembers seen self) (packet : OtherPacket)
    (videoPts : ℤ) :
    let next := self.detect packet.payloadType packet.timestamp packet.payload videoPts
    (Completes seen packet ∧ next.payloadType = some packet.payloadType ∧
      next.pending.map (fun held => ⟨packet.payloadType, held.1, held.2.1⟩) =
        runOf packet.payloadType (seen ++ [packet])) ∨
    (¬ Completes seen packet ∧ seen.length + 1 < probeLimit ∧
      Remembers (seen ++ [packet]) next) ∨
    (¬ Completes seen packet ∧ probeLimit ≤ seen.length + 1 ∧ next.probe = .absent) := by
  intro next
  have hrun := consider_run h packet videoPts
  have hframe := consider_frame { self with probed := self.probed + 1 } packet.payloadType
    packet.timestamp packet.payload videoPts
  have hnext : next = _ := if_neg (not_not_intro h.undecided)
  rw [hnext]
  dsimp only at hrun ⊢
  generalize ({ self with probed := self.probed + 1 } : AudioTrack).consider packet.payloadType
    packet.timestamp packet.payload videoPts = considered at hrun hframe ⊢
  have hprobed : considered.probed = seen.length + 1 := by
    rw [hframe]
    exact congrArg (· + 1) h.probed
  have hundecided : considered.probe = .undecided := by
    rw [hframe]
    exact (probe_congr rfl rfl).trans h.undecided
  -- without a candidate no run is complete
  obtain ⟨hnone, hpending, hruns⟩ | ⟨hsome, hpending, hother⟩ := hrun
  · have hopen : ¬ Completes seen packet := by
      rw [Completes, hruns]
      exact Nat.not_succ_le_zero 7
    rw [hnone]
    dsimp only
    split
    · next hlimit => exact Or.inr (Or.inr ⟨hopen, hprobed ▸ hlimit, giveUp_absent hundecided⟩)
    · next hlimit =>
      refine Or.inr (Or.inl ⟨hopen, Nat.lt_of_not_le (hprobed ▸ hlimit), hundecided, ?_, ?_⟩)
      · rw [hprobed, List.length_append, List.length_singleton]
      · exact Or.inl ⟨hnone, hpending, hruns⟩
  · rw [hsome]
    dsimp only
    -- complete, at the limit, or still open
    split
    · next hcount => exact Or.inl ⟨hcount, rfl, hpending⟩
    · next hcount =>
      split
      · next hlimit => exact Or.inr (Or.inr ⟨hcount, hprobed ▸ hlimit, giveUp_absent hundecided⟩)
      · next hlimit =>
        refine Or.inr (Or.inl ⟨hcount, Nat.lt_of_not_le (hprobed ▸ hlimit), hundecided, ?_, ?_⟩)
        · rw [hprobed, List.length_append, List.length_singleton]
        · exact Or.inr ⟨packet.payloadType, hsome, hpending, hother⟩

/-! ### Packets of the confirmed type -/

/-- The frames are the units, in order, each with an ADTS header that repeats the channels the
unit names. -/
def Carried (frames : List (ℤ × Bytes)) (units : List Bytes) : Prop :=
  List.Forall₂ (fun frame unit => ∃ channels, frame.2 = adtsFrame unit channels ∧
    ∀ own, Aac.channels unit = some own → channels = own) frames units

theorem Carried.nil : Carried [] [] := List.Forall₂.nil

theorem Carried.append {frames more : List (ℤ × Bytes)} {units rest : List Bytes}
    (h : Carried frames units) (h' : Carried more rest) :
    Carried (frames ++ more) (units ++ rest) :=
  List.rel_append h h'

/-- The frames of a packet carry its units. -/
theorem stampFrames_carried (anchor elapsed : ℤ) (units : List Bytes) (index : ℕ)
    (self : AudioTrack) : Carried (stampFrames anchor elapsed index self units).1 units := by
  induction units generalizing index self with
  | nil => exact List.Forall₂.nil
  | cons unit units ih =>
    refine List.Forall₂.cons ⟨(Aac.channels unit).getD self.channels, rfl, ?_⟩ (ih (index + 1) _)
    intro own hown
    rw [hown, Option.getD_some]

/-- One frame for each unit of a packet of the confirmed type. -/
theorem frames_carried {self : AudioTrack} (h : self.payloadType = some type) (timestamp : UInt32)
    (payload : Bytes) (videoPts : ℤ) :
    Carried (self.frames type timestamp payload videoPts).1 (unitsIn payload) := by
  unfold frames unitsIn
  rw [if_neg (not_not_intro h)]
  cases accessUnits payload with
  | none => exact List.Forall₂.nil
  | some units => exact stampFrames_carried _ _ _ _ _

theorem frames_of_ne {self : AudioTrack} (h : self.payloadType ≠ some type) (timestamp : UInt32)
    (payload : Bytes) (videoPts : ℤ) :
    self.frames type timestamp payload videoPts = ([], self) := by
  rw [frames, if_pos h]

/-- The frames of the pending packets carry their units. -/
theorem framesOfAll_carried {self : AudioTrack} (h : self.payloadType = some type)
    (pending : List (UInt32 × Bytes × ℤ)) :
    Carried (framesOfAll type self pending).1
      (audioUnits (pending.map fun held => ⟨type, held.1, held.2.1⟩)) := by
  induction pending generalizing self with
  | nil => exact List.Forall₂.nil
  | cons held pending ih =>
    obtain ⟨htype, -⟩ := self.frames_frame type held.1 held.2.1 held.2.2
    exact (frames_carried h held.1 held.2.1 held.2.2).append (ih (htype.trans h))

/-- **The confirming packets**: their frames, in order. -/
theorem drainPending_carried {self : AudioTrack} (h : self.payloadType = some type) :
    Carried self.drainPending.1
      (audioUnits (self.pending.map fun held => ⟨type, held.1, held.2.1⟩)) := by
  unfold drainPending
  split
  · next hnone =>
    rw [hnone] at h
    cases h
  · next payloadType hsome =>
    obtain rfl := Option.some.inj (hsome.symm.trans h)
    have htype : ({ self with pending := [] } : AudioTrack).payloadType = some payloadType := h
    exact framesOfAll_carried htype self.pending

/-- Draining keeps the payload type. -/
theorem drainPending_payloadType (self : AudioTrack) :
    self.drainPending.2.payloadType = self.payloadType := by
  unfold drainPending
  split
  · rfl
  · next payloadType _ =>
    exact (framesOfAll_frame payloadType self.pending { self with pending := [] }).1

theorem probe_of_type {self : AudioTrack} (h : self.payloadType = some type) :
    self.probe = .confirmed := by
  rw [probe, h]
  rfl

/-- An absent track has no payload type. -/
theorem type_of_absent {self : AudioTrack} (h : self.probe = .absent) :
    self.payloadType = none := by
  cases htype : self.payloadType with
  | none => rfl
  | some type =>
    rw [probe_of_type htype] at h
    cases h

end AudioTrack

end EzvizBridge
