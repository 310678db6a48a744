import EzvizBridge.Transport.Keyframes
import EzvizBridge.Transport.QueueRelease

/-!
# The pipeline (`transport/video_pipeline.rs`) and the end of a session

`copy_as_mpeg_ts` feeds the payloads of a relay session to an `RtpToTs` and passes what comes out to
a consumer. The session yields payloads until the relay closes it or an error ends it; both are
parameters here, and so is the consumer, which may refuse a chunk.

At the end the pipeline asks `started` before it calls `finish`, and `finish` does not look into the
decryptor. `Drained` is what one would expect instead: every access unit from the first keyframe on
is in what the consumer was given, and a missing keyframe is reported only if there was none.
`drained_iff` says which sessions are drained. The access units are those of the plaintext packets
(`plain`), which the cutter may get to see regrouped, or not at all (`seen`); the two are related by
`Reads`, one case for each kind of session.
-/

namespace EzvizBridge

open RtpNalDecryptor (stampedNals)

/-! ### The copy loop -/

section Copy

variable (aes : Aes128) (accepts : List Bytes → Bool)

/-- The loop over the payloads: the stream it leaves behind, `none` where the consumer refused a
chunk, and the chunks that were passed on. `accepts` is told all chunks so far. -/
def copyLoop : RtpToTs → List Bytes → List Bytes →
    Except BridgeError (Option RtpToTs) × List Bytes
  | stream, consumed, [] => (.ok (some stream), consumed)
  | stream, consumed, packet :: payloads =>
    if packet = [] then copyLoop stream consumed payloads
    else
      match stream.feed aes packet with
      | (.error e, _) => (.error e, consumed)
      | (.ok chunk, stream) =>
        if chunk = [] then copyLoop stream consumed payloads
        else if accepts (consumed ++ [chunk]) then copyLoop stream (consumed ++ [chunk]) payloads
        else (.ok none, consumed ++ [chunk])

/-- What a session reports that ends before it has started. -/
def endedBeforeKeyframe : BridgeError :=
  .upstream "RTP stream ended before a keyframe of a supported codec"

/-- `copy_as_mpeg_ts`: `payloads` are those that the session yields, `closing` is how it ends, and
`cancelled` is asked at the end. The result is what the function returns and the chunks that the
consumer was given. -/
def copyAsMpegTs (video : RtpVideo) (first : Option Bytes) (payloads : List Bytes)
    (closing : Except BridgeError Unit) (cancelled : Bool) :
    Except BridgeError Unit × List Bytes :=
  match copyLoop aes accepts (RtpToTs.new video) [] (first.toList ++ payloads) with
  | (.error e, consumed) => (.error e, consumed)
  | (.ok none, consumed) => (.ok (), consumed)
  | (.ok (some stream), consumed) =>
    match closing with
    | .error e => (.error e, consumed)
    | .ok () =>
      -- without a keyframe nothing was written
      if stream.started = false then
        (if cancelled then .ok () else .error endedBeforeKeyframe, consumed)
      else
        let tail := (stream.finish).1
        (.ok (), if tail = [] then consumed else consumed ++ [tail])

/-- The payloads that are fed: the first one and those of the session, empty ones left out. -/
def fedPayloads (first : Option Bytes) (payloads : List Bytes) : List Bytes :=
  (first.toList ++ payloads).filter (· ≠ [])

variable {aes accepts}

/-- A loop without an error, with a consumer that takes everything. -/
theorem copyLoop_ok (haccepts : ∀ chunks, accepts chunks = true) {payloads : List Bytes}
    {stream s : RtpToTs} {out : Bytes}
    (hrun : Transducer.run (RtpToTs.feed aes) stream (payloads.filter (· ≠ [])) = (.ok out, s))
    (consumed : List Bytes) :
    ∃ more, copyLoop aes accepts stream consumed payloads = (.ok (some s), consumed ++ more) ∧
      more.flatten = out := by
  induction payloads generalizing stream out consumed with
  | nil =>
    cases hrun
    exact ⟨[], by rw [copyLoop, List.append_nil], rfl⟩
  | cons packet payloads ih =>
    rw [copyLoop]
    -- an empty packet is skipped
    by_cases hpacket : packet = []
    · rw [List.filter_cons_of_neg (by simpa using hpacket)] at hrun
      rw [if_pos hpacket]
      exact ih hrun consumed
    · rw [List.filter_cons_of_pos (by simpa using hpacket)] at hrun
      obtain ⟨chunk, middle, rest, hfeed, hrest, rfl⟩ := Transducer.run_eq_ok_cons.1 hrun
      rw [if_neg hpacket, hfeed]
      dsimp only
      by_cases hchunk : chunk = []
      · rw [if_pos hchunk, hchunk, List.nil_append]
        exact ih hrest consumed
      · rw [if_neg hchunk, if_pos (haccepts _)]
        obtain ⟨more, hloop, hmore⟩ := ih hrest (consumed ++ [chunk])
        refine ⟨chunk :: more, ?_, ?_⟩
        · rw [hloop, List.append_assoc, List.singleton_append]
        · rw [List.flatten_cons, hmore]

/-- **The end of a session** that fed all its payloads: what is returned depends on whether the
stream has started, and only a stream that has is finished. -/
theorem copyAsMpegTs_closed (haccepts : ∀ chunks, accepts chunks = true) {video : RtpVideo}
    {first : Option Bytes} {payloads : List Bytes} {s : RtpToTs} {out : Bytes}
    (hrun : Transducer.run (RtpToTs.feed aes) (RtpToTs.new video) (fedPayloads first payloads) =
      (.ok out, s)) :
    (s.started = false →
      (copyAsMpegTs aes accepts video first payloads (.ok ()) false).1 =
        .error endedBeforeKeyframe) ∧
    (s.started = true →
      (copyAsMpegTs aes accepts video first payloads (.ok ()) false).1 = .ok () ∧
      (copyAsMpegTs aes accepts video first payloads (.ok ()) false).2.flatten =
        out ++ (s.finish).1) := by
  obtain ⟨consumed, hloop, hflatten⟩ := copyLoop_ok haccepts hrun []
  rw [List.nil_append] at hloop
  unfold copyAsMpegTs
  rw [hloop]
  dsimp only
  refine ⟨fun hs => ?_, fun hs => ?_⟩
  · rw [if_pos hs]
    rfl
  · rw [if_neg (by rw [hs]; exact Bool.noConfusion)]
    refine ⟨rfl, ?_⟩
    dsimp only
    split
    · next htail => rw [htail, List.append_nil, hflatten]
    · rw [List.flatten_append, hflatten, List.flatten_singleton]

end Copy

/-! ### What a session reads, and what its cutter sees -/

open RtpToTs

/-- The kinds of sessions. `plain` are the NAL packets of the session in plaintext: all of them
without a key, and with a key those from the NAL on that fixed the mode. `seen` are the packets as
the cutter gets to see them. -/
inductive Reads (aes : Aes128) (packets : List Bytes) (s : RtpToTs) :
    Option Block → VideoCodec → (plain seen : List NalPacket) → Prop
  /-- No packet has named the codec: whatever the packets are, none has been looked at. -/
  | unnamed {codec : VideoCodec} {type : UInt8} {nals : List NalPacket}
      (hnone : s.video.codec = none)
      (hnals : nalPackets codec none (videoPackets type packets) = some nals) :
      Reads aes packets s none codec nals []
  | keyless {codec : VideoCodec} {nals : List NalPacket} (hnamed : Named packets codec nals s) :
      Reads aes packets s none codec nals nals
  /-- A clear stream, although there is a key. -/
  | clear {codec : VideoCodec} {key : Block} {before rest : List NalPacket} {t : UInt32}
      {marker : Bool} {skipped after : List Bytes} {fixing : Bytes}
      (hnamed : Named packets codec
        (before ++ ⟨t, marker, skipped ++ fixing :: after⟩ :: rest) s)
      (hfixes : NalDecryptor.FixesMode aes codec key
        (before.flatMap NalPacket.stamped ++ stampedNals t skipped) (t, fixing) .clear) :
      Reads aes packets s (some key) codec (⟨t, marker, fixing :: after⟩ :: rest)
        (⟨t, marker, fixing :: after⟩ :: rest)
  /-- The layout with a clear NAL header. Inter slices are decrypted if the session has decided that
  they are encrypted. -/
  | headerClear {codec : VideoCodec} {key : Block} {before rest : List NalPacket} {t : UInt32}
      {marker : Bool} {skipped after : List Bytes} {fixing : Bytes} {clear : ℕ}
      {decryptor : RtpNalDecryptor} (hheader : 0 < clear)
      (hnamed : Named packets codec
        (before ++ ⟨t, marker, skipped ++ fixing :: after⟩ :: rest) s)
      (hfixes : NalDecryptor.FixesMode aes codec key
        (before.flatMap NalPacket.stamped ++ stampedNals t skipped) (t, fixing)
        (.encrypted clear 0))
      (hdec : s.video.decryptor = some decryptor) :
      Reads aes packets s (some key) codec
        ((⟨t, marker, fixing :: after⟩ :: rest).map
          (NalPacket.opened aes codec key (decryptor.nal.interEncrypted = some true)))
        ((regroup codec [] (⟨t, marker, fixing :: after⟩ :: rest)).map
          (NalPacket.opened aes codec key (decryptor.nal.interEncrypted = some true)))

variable {aes : Aes128} {key : Option Block} {codec : VideoCodec} {packets : List Bytes}
  {plain seen : List NalPacket} {out : Bytes} {s : RtpToTs}

/-- Nothing is merged where nothing waited. -/
theorem Merges.refl (units : List AccessUnit) : Merges units units := by
  refine ⟨units.map fun unit => (unit.1, [unit.2]), ?_, ?_, ?_⟩
  · intro group hgroup
    obtain ⟨unit, -, rfl⟩ := List.mem_map.1 hgroup
    exact List.cons_ne_nil _ _
  · simp [expandGroups, List.flatMap_map]
  · simp [mergeGroups, Function.comp_def]

/-- **The items of a session are cut like a clear session of the packets in `seen`**, and once the
stream has started they are the units of `plain`, with neighbours of one timestamp put together. -/
theorem Reads.account
    (hrun : Transducer.run (feed aes) (new (RtpVideo.withKey key)) packets = (.ok out, s))
    (h : Reads aes packets s key codec plain seen) :
    (s.started = false ∧ seen = []) ∨
    ∃ items, ItemAccount codec items out s ∧
      cut none items = cut none (seen.flatMap (promptItems codec)) ∧
      (seen ≠ [] → Merges (unitsOf (plain.flatMap (promptItems codec))) (unitsOf items)) := by
  cases h with
  | unnamed hnone hnals =>
    obtain ⟨items, -, ⟨-, -, hs, -⟩ | ⟨codec', -, -, haccount⟩⟩ := run_session _ hrun
    · exact Or.inl ⟨by rw [hs]; rfl, rfl⟩
    · exact nomatch hnone.symm.trans haccount.closed.codec_eq
  | keyless hnamed =>
    obtain ⟨items, decryptor, haccount, -, hstep⟩ := Plays.account ⟨hrun, hnamed⟩
    obtain ⟨last, hclear⟩ := NalDecryptor.run_clear aes
      (show (NalDecryptor.new codec none).mode = .clear from rfl) rfl plain
    have hitems := Except.ok.inj (Prod.mk.inj (hstep.symm.trans hclear)).1
    have hcut : cut none items = cut none (plain.flatMap (promptItems codec)) := by
      rw [← cut_filter_isVideo, hitems]
      rfl
    refine Or.inr ⟨items, haccount, hcut, fun _ => ?_⟩
    rw [unitsOf, ← hcut]
    exact Merges.refl _
  | @clear _ key before rest t marker skipped after fixing hnamed hfixes =>
    obtain ⟨items, decryptor, haccount, -, hstep⟩ := Plays.account ⟨hrun, hnamed⟩
    obtain ⟨-, items', hlate, hsame⟩ := NalDecryptor.run_fixing hstep hfixes
    -- the queue is given up with the NAL that fixes the mode
    obtain ⟨last, hclear⟩ := NalDecryptor.run_clear aes
      (show ((NalDecryptor.new codec (some key)).settle t .clear).mode = .clear from rfl) rfl
      (⟨t, marker, fixing :: after⟩ :: rest)
    have hitems := Except.ok.inj (Prod.mk.inj (hlate.symm.trans hclear)).1
    have hcut : cut none items =
        cut none ((⟨t, marker, fixing :: after⟩ :: rest).flatMap (promptItems codec)) := by
      rw [← cut_filter_isVideo, cut_eq_foldl, hsame, hitems, ← cut_eq_foldl]
      rfl
    refine Or.inr ⟨items, haccount, hcut, fun _ => ?_⟩
    rw [unitsOf, ← hcut]
    exact Merges.refl _
  | @headerClear _ key before rest t marker skipped after fixing clear decryptor hheader hnamed
      hfixes hdec =>
    obtain ⟨items, decryptor', haccount, hdec', hstep⟩ := Plays.account ⟨hrun, hnamed⟩
    obtain rfl := Option.some.inj (hdec.symm.trans hdec')
    obtain ⟨hmode, items', hlate, hsame⟩ := NalDecryptor.run_fixing hstep hfixes
    obtain rfl := NalDecryptor.clear_eq_header hheader hmode
    obtain ⟨hregroup, hunreleased⟩ := NalDecryptor.run_regroup []
      (NalDecryptor.ledger_settle aes codec _ _) rfl (NalDecryptor.tally_settle codec _ _) hlate
    refine Or.inr ⟨items, haccount, ?_, fun hseen => ?_⟩
    · rw [← cut_filter_isVideo, cut_eq_foldl, hsame, hregroup, ← cut_eq_foldl]
    · cases hinter : decryptor.nal.interEncrypted with
      | none =>
        rw [hunreleased hinter] at hseen
        exact absurd rfl hseen
      | some inter =>
        have hmerges := (NalDecryptor.run_waiting (NalDecryptor.ledger_settle aes codec _ _) rfl
          (Or.inl ⟨rfl, rfl⟩) hlate hinter).merges
        rw [← hsame, ← unitsOf_eq_foldl, ← List.flatMap_map, ← unitsOf_eq_foldl,
          unitsOf_filter_isVideo] at hmerges
        have hdecision : decide (some inter = some true) = inter := by cases inter <;> rfl
        rw [hdecision]
        exact hmerges

/-- **Which streams start.** -/
theorem Reads.started_iff
    (hrun : Transducer.run (feed aes) (new (RtpVideo.withKey key)) packets = (.ok out, s))
    (h : Reads aes packets s key codec plain seen) :
    s.started = true ↔ closesKeyframe codec seen = true := by
  rcases h.account hrun with ⟨hs, rfl⟩ | ⟨items, haccount, hcut, -⟩
  · rw [hs]
    exact ⟨fun h => (nomatch h), fun h => (nomatch h)⟩
  · rw [haccount.closed.started_iff, hcut]
    exact closed_keyframe_iff codec seen

/-- **What a finished stream has written**: every unit of `plain` from the first keyframe on is part
of the payload of a PES packet. -/
theorem Reads.contained
    (hrun : Transducer.run (feed aes) (new (RtpVideo.withKey key)) packets = (.ok out, s))
    (h : Reads aes packets s key codec plain seen) (hs : s.started = true) {unit : AccessUnit}
    (hunit : unit ∈ fromKeyframe codec (unitsOf (plain.flatMap (promptItems codec)))) :
    ∃ pes, MpegTs.pesPackets (out ++ (s.finish).1) TsMux.videoPid = some pes ∧
      ∃ packet ∈ pes, unit.2 <:+: packet.payload := by
  have hseen : seen ≠ [] := by
    rintro rfl
    exact nomatch (h.started_iff hrun).1 hs
  rcases h.account hrun with ⟨hnot, -⟩ | ⟨items, haccount, -, hmerges⟩
  · exact nomatch hs.symm.trans hnot
  -- every unit handed over is one PES packet
  · obtain ⟨calls, hwritten, hcalls⟩ := finish_handed haccount
    refine ⟨sessionPes codec (fromKeyframe codec (unitsOf items)), ?_, ?_⟩
    · rw [hwritten.pesPackets, hcalls, filterMap_stamped]
    · obtain ⟨unit', hunit', hpart⟩ := (hmerges hseen).fromKeyframe_part hunit
      obtain ⟨i, hi, hget⟩ := List.mem_iff_getElem.1 hunit'
      refine ⟨unitPes codec (90000 + elapsed (((fromKeyframe codec (unitsOf items)).map
        Prod.fst).take (i + 1))) unit'.2, ?_, ?_⟩
      · rw [sessionPes, List.mem_mapIdx]
        exact ⟨i, hi, by rw [hget]⟩
      · -- a delimiter may stand in front of the unit
        refine hpart.trans ?_
        unfold unitPes
        dsimp only
        split
        · exact List.infix_rfl
        · exact (List.suffix_append _ _).isInfix

/-! ### Drained sessions -/

/-- Nothing that was received is dropped at the end: every access unit of `plain` from the first
keyframe on, the last one included, is part of the payload of a PES packet on the video PID, and a
missing keyframe is reported only if no packet had one. -/
structure Drained (codec : VideoCodec) (plain : List NalPacket)
    (result : Except BridgeError Unit × List Bytes) : Prop where
  contained : ∀ unit ∈ fromKeyframe codec (unitsOf (plain.flatMap (promptItems codec))),
    ∃ pes, MpegTs.pesPackets result.2.flatten TsMux.videoPid = some pes ∧
      ∃ packet ∈ pes, unit.2 <:+: packet.payload
  keyframe : result.1 = .error endedBeforeKeyframe →
    ∀ packet ∈ plain, packet.hasKeyPicture codec = false

/-- **Which sessions are drained.** A session that the relay closes, without an error and without
being cancelled, is drained if and only if it received no key picture, or the packets that its
cutter got to see closed an access unit with a key picture. -/
theorem drained_iff (aes : Aes128) (accepts : List Bytes → Bool)
    (haccepts : ∀ chunks, accepts chunks = true) (key : Option Block) (codec : VideoCodec)
    (first : Option Bytes) (payloads : List Bytes) (plain seen : List NalPacket) (out : Bytes)
    (s : RtpToTs)
    (hrun : Transducer.run (feed aes) (new (RtpVideo.withKey key)) (fedPayloads first payloads) =
      (.ok out, s))
    (hreads : Reads aes (fedPayloads first payloads) s key codec plain seen) :
    Drained codec plain
        (copyAsMpegTs aes accepts (RtpVideo.withKey key) first payloads (.ok ()) false) ↔
      (∀ packet ∈ plain, packet.hasKeyPicture codec = false) ∨
        closesKeyframe codec seen = true := by
  obtain ⟨hfailed, hclosed⟩ := copyAsMpegTs_closed haccepts hrun
  have hstarted := hreads.started_iff hrun
  constructor
  · intro hdrained
    cases hs : s.started with
    | true => exact Or.inr (hstarted.1 hs)
    | false => exact Or.inl (hdrained.keyframe (hfailed hs))
  · intro hcondition
    cases hs : s.started with
    | true =>
      -- the stream is finished, and all that was cut is written
      obtain ⟨hok, hbytes⟩ := hclosed hs
      refine ⟨fun unit hunit => ?_, fun herror => ?_⟩
      · rw [hbytes]
        exact hreads.contained hrun hs hunit
      · exact nomatch hok.symm.trans herror
    | false =>
      -- nothing is written, so there must be nothing to write
      have hnone : ∀ packet ∈ plain, packet.hasKeyPicture codec = false := by
        rcases hcondition with hnone | hcloses
        · exact hnone
        · exact nomatch hs.symm.trans (hstarted.2 hcloses)
      refine ⟨fun unit hunit => ?_, fun _ => hnone⟩
      rw [(fromKeyframe_unitsOf_eq_nil codec plain).2 hnone] at hunit
      exact nomatch hunit

/-! ### Sessions that end early -/

/-- A consumer that takes every chunk. -/
def takesAll : List Bytes → Bool := fun _ => true

/-- A key picture whose packet has the marker. -/
theorem drained_of_marked_keyframe :
    Drained .h264 [⟨3000, true, [[0x65, 0x88]]⟩] (copyAsMpegTs RtpVideo.noCipher takesAll
      (RtpVideo.withKey none) (some (RtpVideo.samplePacket true 3000 [0x65, 0x88])) [] (.ok ())
      false) :=
  (drained_iff RtpVideo.noCipher takesAll (fun _ => rfl) none .h264
    (some (RtpVideo.samplePacket true 3000 [0x65, 0x88])) [] [⟨3000, true, [[0x65, 0x88]]⟩]
    [⟨3000, true, [[0x65, 0x88]]⟩] [] _ (Prod.ext (by decide) rfl)
    (.keyless ⟨by decide, 0x60, by decide, by decide⟩)).2 (Or.inr (by decide))

/-- The packets of an encrypted clip: a parameter set, a key picture and one inter slice, the last
two with their markers. -/
def shortClip : List Bytes :=
  [RtpVideo.samplePacket false 0 (0x67 :: NalDecryptor.sampleSps.2.1),
    RtpVideo.samplePacket true 0 (0x65 :: NalDecryptor.sampleIdr.2.1),
    RtpVideo.samplePacket true 3000 sampleSlice]

/-- The NALs of the clip. -/
def shortClipNals : List NalPacket :=
  [⟨0, false, [0x67 :: NalDecryptor.sampleSps.2.1]⟩,
    ⟨0, true, [0x65 :: NalDecryptor.sampleIdr.2.1]⟩, ⟨3000, true, [sampleSlice]⟩]

/-- The same packets with their NALs decrypted. -/
def shortClipPlain : List NalPacket :=
  [⟨0, false, [0x67 :: NalDecryptor.sampleSps.1.1]⟩,
    ⟨0, true, [0x65 :: NalDecryptor.sampleIdr.1.1]⟩, ⟨3000, true, [sampleSlice]⟩]

/-- The clip is a session in the layout with a clear NAL header whose queue is never released. -/
theorem shortClip_reads :
    ∃ s, Transducer.run (feed sessionAes) (new (RtpVideo.withKey (some NalDecryptor.sampleKey)))
        (fedPayloads none shortClip) = (.ok [], s) ∧
      Reads sessionAes (fedPayloads none shortClip) s (some NalDecryptor.sampleKey) .h264
        shortClipPlain [] := by
  set s := (Transducer.run (feed sessionAes) (new (RtpVideo.withKey (some NalDecryptor.sampleKey)))
    (fedPayloads none shortClip)).2 with hs
  refine ⟨s, Prod.ext (by decide +kernel) rfl, ?_⟩
  have hdec : (s.video.decryptor.map fun d => d.nal.interEncrypted) = some none := by
    decide +kernel
  obtain ⟨decryptor, hdecryptor, hinter⟩ := Option.map_eq_some_iff.1 hdec
  have hfixes : NalDecryptor.FixesMode sessionAes .h264 NalDecryptor.sampleKey []
      (0, 0x67 :: NalDecryptor.sampleSps.2.1) (.encrypted 1 0) :=
        ⟨rfl, by decide +kernel, by decide⟩
  have hnamed : Named (fedPayloads none shortClip) .h264 shortClipNals s :=
    ⟨by decide +kernel, 0x60, by decide +kernel, by decide +kernel⟩
  have hreads : Reads sessionAes (fedPayloads none shortClip) s (some NalDecryptor.sampleKey) .h264
      (shortClipNals.map (NalPacket.opened sessionAes .h264 NalDecryptor.sampleKey
        (decryptor.nal.interEncrypted = some true)))
      ((regroup .h264 [] shortClipNals).map (NalPacket.opened sessionAes .h264
        NalDecryptor.sampleKey (decryptor.nal.interEncrypted = some true))) :=
    .headerClear Nat.one_pos
      (show Named _ _ ([] ++ ⟨0, false, [] ++ _ :: []⟩ :: _) s from hnamed) hfixes hdecryptor
  -- nothing has been decided, so inter slices are read as they came
  have hdecision : decide ((none : Option Bool) = some true) = false := rfl
  have hplain : shortClipNals.map (NalPacket.opened sessionAes .h264 NalDecryptor.sampleKey false) =
      shortClipPlain := by decide +kernel
  have hregroup : regroup .h264 [] shortClipNals = [] := by decide +kernel
  rw [hinter, hdecision, hplain, hregroup] at hreads
  exact hreads

/-- **What is dropped.** A clear session that ends while its first keyframe is still open fails as
if there had been none; and so does an encrypted clip that is complete, but too short for eight
samples: its start-up queue is never looked at. -/
theorem keyframes_dropped_at_end :
    (let first := RtpVideo.samplePacket false 3000 [0x65, 0x88]
    (∃ s, Transducer.run (feed RtpVideo.noCipher) (new (RtpVideo.withKey none))
        (fedPayloads (some first) []) = (.ok [], s) ∧
      Reads RtpVideo.noCipher (fedPayloads (some first) []) s none .h264
        [⟨3000, false, [[0x65, 0x88]]⟩] [⟨3000, false, [[0x65, 0x88]]⟩]) ∧
    copyAsMpegTs RtpVideo.noCipher takesAll (RtpVideo.withKey none) (some first) [] (.ok ()) false =
      (.error endedBeforeKeyframe, []) ∧
    ¬ Drained .h264 [⟨3000, false, [[0x65, 0x88]]⟩] (copyAsMpegTs RtpVideo.noCipher takesAll
      (RtpVideo.withKey none) (some first) [] (.ok ()) false)) ∧
    ((∃ s, Transducer.run (feed sessionAes) (new (RtpVideo.withKey (some NalDecryptor.sampleKey)))
        (fedPayloads none shortClip) = (.ok [], s) ∧
      Reads sessionAes (fedPayloads none shortClip) s (some NalDecryptor.sampleKey) .h264
        shortClipPlain []) ∧
    copyAsMpegTs sessionAes takesAll (RtpVideo.withKey (some NalDecryptor.sampleKey)) none shortClip
      (.ok ()) false = (.error endedBeforeKeyframe, []) ∧
    ¬ Drained .h264 shortClipPlain (copyAsMpegTs sessionAes takesAll
      (RtpVideo.withKey (some NalDecryptor.sampleKey)) none shortClip (.ok ()) false)) := by
  refine ⟨⟨⟨_, Prod.ext (by decide) rfl, .keyless ⟨by decide, 0x60, by decide, by decide⟩⟩,
    by decide, fun h => ?_⟩, ⟨shortClip_reads, by decide +kernel, fun h => ?_⟩⟩
  · exact absurd (h.keyframe (by decide) _ (List.mem_cons_self)) (by decide)
  · exact absurd (h.keyframe (by decide +kernel) ⟨0, true, [0x65 :: NalDecryptor.sampleIdr.1.1]⟩
      (by decide)) (by decide)

end EzvizBridge
