import EzvizBridge.Recordings.Writing

/-!
# A recording and the chunks it arrives in

The buffer in which `media_alignment` looks for the media grows chunk by chunk. A stream with a pack
code behind three sync bytes is recorded as a transport stream if some chunk ends between the two,
and as a program stream otherwise. The first happens for some way of cutting every such stream, the
second as soon as the two are within one chunk. So there are streams of which the recording depends
on the chunks, among them transport streams with the bytes of a pack code in a payload;
`Unambiguous` are all the others (`chunking_invariant_iff`).
-/

namespace EzvizBridge

namespace Recordings

open Manager

/-! ### Two ways of cutting one stream -/

/-- The chunks that live sessions and transfers send are at most this long. -/
def maxChunkBytes : ℕ := 64 * 1024

/-- A way of cutting `stream`, all of which is received. -/
structure Cuts (stream : Bytes) (arrivals : List Arrival) : Prop where
  stream : streamOf arrivals = stream
  size : ∀ a ∈ arrivals, a.source.length ≤ maxChunkBytes
  stop : ∀ a ∈ arrivals, a.stop = false

/-- A stream of whole transport packets that begins with a packet. -/
def PacketStream (stream : Bytes) : Prop :=
  stream.length % tsPacketBytes = 0 ∧
    ∀ i, i * tsPacketBytes < stream.length → stream[i * tsPacketBytes]? = some 0x47

/-- The recording does not depend on where the chunks end, and a stream of packets is recorded as it
is. `alignment` holds the bytes in front of the media. -/
structure ChunkingInvariant (cfg : Config) (stream : Bytes) : Prop where
  same : ∀ arrivals₁ arrivals₂ file₁ file₂ w₁ w₂, Cuts stream arrivals₁ → Cuts stream arrivals₂ →
    receiveAll cfg arrivals₁ = (file₁, .writing w₁) →
    receiveAll cfg arrivals₂ = (file₂, .writing w₂) →
    w₁.format = w₂.format ∧ w₁.alignment = w₂.alignment ∧ file₁ = file₂
  packets : PacketStream stream → ∀ arrivals file w, Cuts stream arrivals →
    receiveAll cfg arrivals = (file, .writing w) →
    w.format = some .mpegTs ∧ w.alignment = [] ∧ file = stream

/-- The streams with which nothing goes wrong. No pack code follows three sync bytes so closely that
both may arrive in one chunk; a stream of packets has three of them, and no pack code near its
beginning. Streams of which too much would have to be recorded do not matter. -/
structure Unambiguous (cfg : Config) (stream : Bytes) : Prop where
  apart : ∀ o p, mediaAlignment (stream.take (o + 377)) = some (o, .mpegTs) →
    mediaAlignment stream = some (p, .mpegPs) → p + 4 ≤ o + 376 + maxChunkBytes →
    cfg.maxBytes < stream.length - o
  packets : PacketStream stream → mediaAlignment stream ≠ none ∧
    ∀ p, mediaAlignment stream = some (p, .mpegPs) → p + 4 ≤ 376 + maxChunkBytes →
      cfg.maxBytes < stream.length - p

section Cuts

variable {cfg : Config} {stream file : Bytes} {w : Writer} {arrivals : List Arrival} {m o p : ℕ}
  {format : RecordingFormat}

theorem Cuts.outcome (hcfg : cfg.Bounded) (hcuts : Cuts stream arrivals)
    (h : receiveAll cfg arrivals = (file, .writing w)) :
    Outcome stream (firstAlignment [] (arrivals.map (·.source))) file w :=
  hcuts.stream ▸ receiveAll_outcome hcfg hcuts.stop h

/-- What is recorded from `o` on fits into the file. -/
theorem Cuts.fits (hcfg : cfg.Bounded) (hcuts : Cuts stream arrivals)
    (h : receiveAll cfg arrivals = (file, .writing w))
    (hfirst : firstAlignment [] (arrivals.map (·.source)) = some (o, format)) :
    stream.length - o ≤ cfg.maxBytes := by
  have houtcome := hcuts.outcome hcfg h
  rw [hfirst] at houtcome
  have hempty : Writer.Holds cfg.maxBytes {} [] :=
    ⟨rfl, rfl, Nat.zero_le _, fun _ => rfl, fun _ h => nomatch h⟩
  have hbound := ((holds_foldl_pass hcfg hempty).1 file w h).bound
  rwa [houtcome.1, List.length_drop] at hbound

/-- The first boundary at which the media are found. -/
theorem Cuts.boundaries (hcuts : Cuts stream arrivals)
    (h : firstAlignment [] (arrivals.map (·.source)) = some (o, format)) :
    ∃ m n, n ≤ m + maxChunkBytes ∧ mediaAlignment (stream.take m) = none ∧
      mediaAlignment (stream.take n) = some (o, format) := by
  have hsize : ∀ source ∈ arrivals.map (·.source), source.length ≤ maxChunkBytes := by
    intro source hsource
    obtain ⟨a, ha, rfl⟩ := List.mem_map.mp hsource
    exact hcuts.size a ha
  rw [← hcuts.stream]
  exact boundaries_of_firstAlignment hsize rfl h

/-- If one way of cutting the stream finds a transport stream and another one a program stream, then
both are within one chunk. -/
theorem apart_of_boundaries {m n n' : ℕ} (hts : mediaAlignment (stream.take n') = some (o, .mpegTs))
    (hps : mediaAlignment (stream.take n) = some (p, .mpegPs)) (hn : n ≤ m + maxChunkBytes)
    (hm : mediaAlignment (stream.take m) = none) :
    mediaAlignment (stream.take (o + 377)) = some (o, .mpegTs) ∧
      mediaAlignment stream = some (p, .mpegPs) ∧ p + 4 ≤ o + 376 + maxChunkBytes := by
  obtain ⟨hsync, hn', hpack⟩ := mediaAlignment_take_ts.mp hts
  obtain ⟨hfirst, hle⟩ := mediaAlignment_take_ps.mp hps
  refine ⟨mediaAlignment_take_ts.mpr ⟨hsync, le_rfl, fun q hq => ?_⟩,
    mediaAlignment_eq_ps.mpr hfirst, ?_⟩
  · exact Nat.lt_of_le_of_lt hn' (hpack q hq)
  · have := lt_of_mediaAlignment_none hsync hm
    omega

/-- A stream of packets is in step from its first byte on. -/
theorem FirstSync.of_packets (h : PacketStream stream) (hlength : 377 ≤ stream.length) :
    FirstSync stream 0 := by
  have hts : tsPacketBytes = 188 := rfl
  refine ⟨by decide, decide_eq_true ⟨?_, ?_, ?_⟩, fun q hq => (nomatch hq)⟩
  · have h₀ := h.2 0 (by omega)
    rwa [Nat.zero_mul] at h₀
  · have h₁ := h.2 1 (by omega)
    rwa [Nat.one_mul] at h₁
  · have h₂ := h.2 2 (by omega)
    rwa [Nat.mul_comm] at h₂

/-- Two ways of cutting find the same media. -/
theorem Unambiguous.same (hcfg : cfg.Bounded) (h : Unambiguous cfg stream)
    {arrivals₁ arrivals₂ : List Arrival} {file₁ file₂ : Bytes} {w₁ w₂ : Writer}
    (hcuts₁ : Cuts stream arrivals₁) (hcuts₂ : Cuts stream arrivals₂)
    (h₁ : receiveAll cfg arrivals₁ = (file₁, .writing w₁))
    (h₂ : receiveAll cfg arrivals₂ = (file₂, .writing w₂)) :
    firstAlignment [] (arrivals₁.map (·.source)) =
      firstAlignment [] (arrivals₂.map (·.source)) := by
  -- a boundary of one way at which something is found is before the end of the other
  have hnone : ∀ {a b : List Arrival} {found}, Cuts stream a → Cuts stream b →
      firstAlignment [] (a.map (·.source)) = none →
      firstAlignment [] (b.map (·.source)) ≠ some found := by
    intro a b found ha hb hfirst hfirst'
    obtain ⟨m, n, -, -, hn⟩ := hb.boundaries hfirst'
    have hwhole := mediaAlignment_of_firstAlignment_none rfl hfirst
    exact mediaAlignment_ne_none_of_take hn (ha.stream ▸ hwhole)
  -- a transport stream in one and a program stream in the other one would be too close
  have hmixed : ∀ {a b : List Arrival} {f g w v o p}, Cuts stream a → Cuts stream b →
      receiveAll cfg a = (f, .writing w) → receiveAll cfg b = (g, .writing v) →
      firstAlignment [] (a.map (·.source)) = some (o, .mpegTs) →
      firstAlignment [] (b.map (·.source)) ≠ some (p, .mpegPs) := by
    intro a b f g w v o p ha hb hrun _ hts hps
    obtain ⟨-, n', -, -, hn'⟩ := ha.boundaries hts
    obtain ⟨m, n, hsize, hm, hn⟩ := hb.boundaries hps
    obtain ⟨hfound, hwhole, hclose⟩ := apart_of_boundaries hn' hn hsize hm
    have hlarge := h.apart o p hfound hwhole hclose
    have hfits := ha.fits hcfg hrun hts
    omega
  -- found by both or by none, and then in the same format
  cases hf₁ : firstAlignment [] (arrivals₁.map (·.source)) with
  | none =>
    cases hf₂ : firstAlignment [] (arrivals₂.map (·.source)) with
    | none => rfl
    | some found => exact absurd hf₂ (hnone hcuts₁ hcuts₂ hf₁)
  | some found₁ =>
    cases hf₂ : firstAlignment [] (arrivals₂.map (·.source)) with
    | none => exact absurd hf₁ (hnone hcuts₂ hcuts₁ hf₂)
    | some found₂ =>
      obtain ⟨o₁, format₁⟩ := found₁
      obtain ⟨o₂, format₂⟩ := found₂
      obtain ⟨-, n₁, -, -, hn₁⟩ := hcuts₁.boundaries hf₁
      obtain ⟨-, n₂, -, -, hn₂⟩ := hcuts₂.boundaries hf₂
      cases format₁ with
      | mpegPs =>
        cases format₂ with
        | mpegPs =>
          rw [(mediaAlignment_take_ps.mp hn₁).1.eq (mediaAlignment_take_ps.mp hn₂).1]
        | mpegTs => exact absurd hf₁ (hmixed hcuts₂ hcuts₁ h₂ h₁ hf₂)
      | mpegTs =>
        cases format₂ with
        | mpegPs => exact absurd hf₂ (hmixed hcuts₁ hcuts₂ h₁ h₂ hf₁)
        | mpegTs =>
          rw [(mediaAlignment_take_ts.mp hn₁).1.eq (mediaAlignment_take_ts.mp hn₂).1]

/-- A stream of packets is recorded from its first byte on. -/
theorem Unambiguous.from_start (hcfg : cfg.Bounded) (h : Unambiguous cfg stream)
    (hpackets : PacketStream stream) (hcuts : Cuts stream arrivals)
    (hrun : receiveAll cfg arrivals = (file, .writing w)) :
    firstAlignment [] (arrivals.map (·.source)) = some (0, .mpegTs) := by
  obtain ⟨hsome, hpack⟩ := h.packets hpackets
  -- a stream of packets is found, and no pack code comes before
  cases hfirst : firstAlignment [] (arrivals.map (·.source)) with
  | none => exact absurd (hcuts.stream ▸ mediaAlignment_of_firstAlignment_none rfl hfirst) hsome
  | some found =>
    obtain ⟨o, format⟩ := found
    obtain ⟨m, n, hsize, hm, hn⟩ := hcuts.boundaries hfirst
    cases format with
    | mpegPs =>
      exfalso
      obtain ⟨hp, hle⟩ := mediaAlignment_take_ps.mp hn
      have hclose : o + 4 ≤ 376 + maxChunkBytes := by
        by_cases hlength : 377 ≤ stream.length
        · have := lt_of_mediaAlignment_none (FirstSync.of_packets hpackets hlength) hm
          omega
        · have := hp.1.bound
          omega
      have hlarge := hpack o (mediaAlignment_eq_ps.mpr hp) hclose
      have hfits := hcuts.fits hcfg hrun hfirst
      omega
    | mpegTs =>
      obtain ⟨hsync, -, -⟩ := mediaAlignment_take_ts.mp hn
      have hlength := syncedAt_bound hsync.2.1
      rw [hsync.eq (FirstSync.of_packets hpackets (by omega))]

/-- What is found does not depend on the cuts. -/
theorem Unambiguous.chunkingInvariant (hcfg : cfg.Bounded) (h : Unambiguous cfg stream) :
    ChunkingInvariant cfg stream := by
  refine ⟨?_, ?_⟩
  · intro arrivals₁ arrivals₂ file₁ file₂ w₁ w₂ hcuts₁ hcuts₂ h₁ h₂
    have hsame := h.same hcfg hcuts₁ hcuts₂ h₁ h₂
    have houtcome₁ := hcuts₁.outcome hcfg h₁
    have houtcome₂ := hcuts₂.outcome hcfg h₂
    rw [hsame] at houtcome₁
    -- nothing was found, or the same media
    cases hfirst : firstAlignment [] (arrivals₂.map (·.source)) with
    | none =>
      rw [hfirst] at houtcome₁ houtcome₂
      obtain ⟨hfile₁, hformat₁, halign₁, -⟩ := houtcome₁
      obtain ⟨hfile₂, hformat₂, halign₂, -⟩ := houtcome₂
      exact ⟨hformat₁.trans hformat₂.symm, halign₁.trans halign₂.symm, hfile₁.trans hfile₂.symm⟩
    | some found =>
      rw [hfirst] at houtcome₁ houtcome₂
      obtain ⟨hfile₁, hformat₁, halign₁⟩ := houtcome₁
      obtain ⟨hfile₂, hformat₂, halign₂⟩ := houtcome₂
      exact ⟨hformat₁.trans hformat₂.symm, halign₁.trans halign₂.symm, hfile₁.trans hfile₂.symm⟩
  · intro hpackets arrivals file w hcuts hrun
    have houtcome := hcuts.outcome hcfg hrun
    rw [h.from_start hcfg hpackets hcuts hrun] at houtcome
    exact ⟨houtcome.2.1, houtcome.2.2, houtcome.1⟩

/-- The stream in chunks that are as long as they can be, except for the first one. -/
def cutAt (stream : Bytes) (m : ℕ) : List Arrival :=
  { source := stream.take m } ::
    (chunks maxChunkBytes (stream.drop m)).map fun source => { source }

/-- A stream can be cut anywhere. -/
theorem cuts_cutAt (hm : m ≤ maxChunkBytes) : Cuts stream (cutAt stream m) := by
  refine ⟨?_, ?_, ?_⟩
  · rw [cutAt, streamOf_cons, streamOf, List.map_map]
    have hsources : (fun a : Arrival => a.source) ∘ (fun source => { source }) = id := rfl
    rw [hsources, List.map_id, flatten_chunks (by decide), List.take_append_drop]
  · intro a ha
    rcases List.mem_cons.mp ha with rfl | ha
    · exact Nat.le_trans (List.length_take_le ..) hm
    · obtain ⟨source, hsource, rfl⟩ := List.mem_map.mp ha
      exact length_le_of_mem_chunks hsource
  · intro a ha
    rcases List.mem_cons.mp ha with rfl | ha
    · rfl
    · obtain ⟨source, -, rfl⟩ := List.mem_map.mp ha
      rfl

/-- The media are found in the first chunk, or else in the first two. -/
theorem firstAlignment_cutAt
    (h : mediaAlignment (stream.take m) = some (o, format) ∨
      mediaAlignment (stream.take m) = none ∧
        mediaAlignment (stream.take (m + maxChunkBytes)) = some (o, format)) :
    firstAlignment [] ((cutAt stream m).map (·.source)) = some (o, format) := by
  rw [cutAt, List.map_cons, firstAlignment, List.nil_append]
  -- found in the first chunk, or with the second one
  rcases h with h | ⟨hnone, h⟩
  · rw [h]
  · rw [hnone]
    dsimp only
    have hne : stream.drop m ≠ [] := by
      intro hnil
      have hle : stream.length ≤ m := List.drop_eq_nil_iff.mp hnil
      rw [List.take_of_length_le hle] at hnone
      rw [List.take_of_length_le (by omega)] at h
      cases hnone.symm.trans h
    rw [chunks_of_ne_nil (by decide) hne, List.map_cons, List.map_cons, firstAlignment,
      ← List.take_add, h]

/-- The stream can be cut so that it is recorded from there, if that fits into the file. -/
theorem exists_cut (hcfg : cfg.Bounded) (hm : m ≤ maxChunkBytes)
    (h : mediaAlignment (stream.take m) = some (o, format) ∨
      mediaAlignment (stream.take m) = none ∧
        mediaAlignment (stream.take (m + maxChunkBytes)) = some (o, format))
    (hfits : stream.length - o ≤ cfg.maxBytes) :
    ∃ arrivals w, Cuts stream arrivals ∧ receiveAll cfg arrivals = (stream.drop o, .writing w) ∧
      w.format = some format := by
  have hcuts := @cuts_cutAt stream m hm
  have hfirst := firstAlignment_cutAt h
  -- what is found in two chunks is found in less than a megabyte
  have hearly : ∀ n ≤ stream.length, mediaAlignment (stream.take n) = none → n ≤ 1024 * 1024 := by
    intro n _ hn
    by_contra hlong
    obtain ⟨k, hk, hfound⟩ : ∃ k ≤ n, mediaAlignment (stream.take k) = some (o, format) := by
      rw [maxChunkBytes] at hm h
      rcases h with h | ⟨-, h⟩
      · exact ⟨m, by omega, h⟩
      · exact ⟨m + 64 * 1024, by omega, h⟩
    rw [← Nat.min_eq_left hk, ← List.take_take] at hfound
    exact mediaAlignment_ne_none_of_take hfound hn
  obtain ⟨file, w, hrun, houtcome⟩ := exists_receiveAll hcfg hcuts.stop hfirst
    (hcuts.stream.symm ▸ hfits) (hcuts.stream.symm ▸ hearly)
  obtain ⟨rfl, hformat, -⟩ := houtcome
  rw [hcuts.stream] at hrun
  exact ⟨cutAt stream m, w, hcuts, hrun, hformat⟩

/-- Otherwise a boundary right after the third sync byte and one right before it would make a
difference. -/
theorem ChunkingInvariant.apart (hcfg : cfg.Bounded) (h : ChunkingInvariant cfg stream)
    (hts : mediaAlignment (stream.take (o + 377)) = some (o, .mpegTs))
    (hps : mediaAlignment stream = some (p, .mpegPs)) (hclose : p + 4 ≤ o + 376 + maxChunkBytes) :
    cfg.maxBytes < stream.length - o := by
  by_contra hfits
  obtain ⟨hsync, -, hlate⟩ := mediaAlignment_take_ts.mp hts
  have hfirst := mediaAlignment_eq_ps.mp hps
  have hlt := hlate p hfirst
  have hoffset : o < 188 := hsync.1
  -- right before the third sync byte nothing is found
  have hnone : mediaAlignment (stream.take (o + 376)) = none := by
    refine mediaAlignment_take_none (fun q hq => ?_) (fun q hq => ?_)
    · obtain rfl := hfirst.eq hq
      omega
    · obtain rfl := hsync.eq hq
      omega
  have hpack : mediaAlignment (stream.take (o + 376 + maxChunkBytes)) = some (p, .mpegPs) :=
    mediaAlignment_take_ps.mpr ⟨hfirst, hclose⟩
  have hchunk : o + 377 ≤ maxChunkBytes := by
    rw [maxChunkBytes]
    -- one cut finds the transport stream, the other one the pack code
    omega
  obtain ⟨arrivals₁, w₁, hcuts₁, h₁, hformat₁⟩ :=
    exists_cut hcfg hchunk (.inl hts) (Nat.le_of_not_lt hfits)
  obtain ⟨arrivals₂, w₂, hcuts₂, h₂, hformat₂⟩ :=
    @exists_cut cfg stream (o + 376) p .mpegPs hcfg (by omega) (.inr ⟨hnone, hpack⟩) (by omega)
  have hsame := (h.same _ _ _ _ _ _ hcuts₁ hcuts₂ h₁ h₂).1
  rw [hformat₁, hformat₂] at hsame
  exact nomatch hsame

/-- A stream without three packets is taken to its end and not recorded at all. -/
theorem ChunkingInvariant.found (hcfg : cfg.Bounded) (h : ChunkingInvariant cfg stream)
    (hpackets : PacketStream stream) : mediaAlignment stream ≠ none := by
  intro hnone
  -- a short stream is one chunk
  have hshort : stream.length < 377 := by
    by_contra hlength
    have hlt := lt_of_mediaAlignment_none (FirstSync.of_packets hpackets (by omega))
      (by rwa [List.take_length])
    omega
  have hcuts : Cuts stream [{ source := stream }] := by
    refine ⟨by simp, fun a ha => ?_, fun a ha => ?_⟩
    · obtain rfl := List.mem_singleton.mp ha
      show stream.length ≤ maxChunkBytes
      rw [maxChunkBytes]
      omega
    · obtain rfl := List.mem_singleton.mp ha
      rfl
  have hpass := @pass_before cfg [] {} { source := stream } hcfg rfl rfl rfl
  rw [List.nil_append, hnone] at hpass
  dsimp only at hpass
  rw [if_neg (by omega)] at hpass
  exact nomatch (h.packets hpackets _ _ _ hcuts hpass).1

/-- A pack code in what may be the first two chunks would start a program stream. -/
theorem ChunkingInvariant.far (hcfg : cfg.Bounded) (h : ChunkingInvariant cfg stream)
    (hpackets : PacketStream stream) (hps : mediaAlignment stream = some (p, .mpegPs))
    (hclose : p + 4 ≤ 376 + maxChunkBytes) : cfg.maxBytes < stream.length - p := by
  by_contra hfits
  have hfirst := mediaAlignment_eq_ps.mp hps
  -- the first chunk ends before the third sync byte
  have hfound : mediaAlignment (stream.take 376) = some (p, .mpegPs) ∨
      mediaAlignment (stream.take 376) = none ∧
        mediaAlignment (stream.take (376 + maxChunkBytes)) = some (p, .mpegPs) := by
    by_cases hle : p + 4 ≤ 376
    · exact .inl (mediaAlignment_take_ps.mpr ⟨hfirst, hle⟩)
    · refine .inr ⟨?_, mediaAlignment_take_ps.mpr ⟨hfirst, hclose⟩⟩
      refine mediaAlignment_take_none (fun q hq => ?_) (fun q _ => by omega)
      obtain rfl := hfirst.eq hq
      omega
  obtain ⟨arrivals, w, hcuts, hrun, hformat⟩ :=
    @exists_cut cfg stream 376 p .mpegPs hcfg (by decide) hfound (Nat.le_of_not_lt hfits)
  have hts := (h.packets hpackets _ _ _ hcuts hrun).1
  rw [hformat] at hts
  exact nomatch hts

/-- A recording depends on where the chunks end exactly if a pack code may arrive in one chunk with
the third sync byte in front of it. -/
theorem chunking_invariant_iff (hcfg : cfg.Bounded) (stream : Bytes) :
    ChunkingInvariant cfg stream ↔ Unambiguous cfg stream := by
  constructor
  · intro h
    refine ⟨fun o p hts hps hclose => h.apart hcfg hts hps hclose, fun hpackets => ⟨?_, ?_⟩⟩
    · exact h.found hcfg hpackets
    · exact fun p hps hclose => h.far hcfg hpackets hps hclose
  · exact fun h => h.chunkingInvariant hcfg

def samplePacket : Bytes := 0x47 :: List.replicate 187 0

def samplePackets : Bytes := samplePacket ++ samplePacket ++ samplePacket

/-- Three packets with nothing ambiguous in them. -/
theorem chunking_invariant_iff_sample : ChunkingInvariant Manager.sampleConfig samplePackets := by
  have hcfg : Manager.sampleConfig.Bounded := ⟨by decide, by decide⟩
  have hwhole : mediaAlignment samplePackets = some (0, .mpegTs) := by
    refine mediaAlignment_eq_ts.mpr ⟨fun q hq => ?_, by decide, by decide +kernel, nofun⟩
    have hno : 0x01 ∉ samplePackets := by decide +kernel
    exact hno (List.mem_of_mem_take hq.mem_take)
  refine (chunking_invariant_iff hcfg samplePackets).mpr ⟨?_, fun _ => ⟨?_, ?_⟩⟩
  · exact fun o p _ hps => nomatch hwhole.symm.trans hps
  · exact fun hnone => nomatch hwhole.symm.trans hnone
  · exact fun p hps => nomatch hwhole.symm.trans hps

/-- Three packets; the payload of the last one has the bytes of a pack code. -/
def ambiguousPackets : Bytes :=
  samplePacket ++ samplePacket ++
    0x47 :: List.replicate 23 0xff ++ packStart ++ List.replicate 160 0xff

/-- With a boundary behind the first byte of the third packet the three packets are recorded as they
are; with one in front of it they are taken for a program stream that starts inside of the
packet. -/
theorem recording_depends_on_chunks :
    PacketStream ambiguousPackets ∧
      (∃ arrivals w, Cuts ambiguousPackets arrivals ∧
        receiveAll Manager.sampleConfig arrivals = (ambiguousPackets, .writing w) ∧
        w.format = some .mpegTs) ∧
      ∃ arrivals w, Cuts ambiguousPackets arrivals ∧
        receiveAll Manager.sampleConfig arrivals = (ambiguousPackets.drop 400, .writing w) ∧
        w.format = some .mpegPs := by
  have hcfg : Manager.sampleConfig.Bounded := ⟨by decide, by decide⟩
  have hlength : ambiguousPackets.length = 564 := by decide +kernel
  have hpackets : PacketStream ambiguousPackets := by
    refine ⟨by decide +kernel, fun i hi => ?_⟩
    have hsync : ∀ i < 3, ambiguousPackets[i * tsPacketBytes]? = some 0x47 := by decide +kernel
    rw [hlength, tsPacketBytes] at hi
    exact hsync i (by omega)
  -- the only byte `0x01` is the one of the pack code
  have hpack : FirstPack ambiguousPackets 400 := by
    refine ⟨List.isPrefixOf_iff_prefix.mp (by decide +kernel), fun q hq hq' => ?_⟩
    have hno : 0x01 ∉ ambiguousPackets.take 402 := by decide +kernel
    refine hno ((List.take_subset_take_left _ ?_) hq'.mem_take)
    omega
  have hsync := FirstSync.of_packets hpackets (by omega)
  -- cut behind the boundary, and at it
  refine ⟨hpackets, ?_, ?_⟩
  · have hts : mediaAlignment (ambiguousPackets.take 377) = some (0, .mpegTs) := by
      refine mediaAlignment_take_ts.mpr ⟨hsync, le_rfl, fun p hp => ?_⟩
      obtain rfl := hpack.eq hp
      decide
    exact exists_cut hcfg (by decide) (.inl hts) (by rw [hlength]; decide)
  · have hnone : mediaAlignment (ambiguousPackets.take 376) = none := by
      refine mediaAlignment_take_none (fun p hp => ?_) (fun o _ => by omega)
      obtain rfl := hpack.eq hp
      decide
    have hps := (@mediaAlignment_take_ps _ (376 + maxChunkBytes) _).mpr ⟨hpack, by decide⟩
    exact exists_cut hcfg (by decide) (.inr ⟨hnone, hps⟩) (by rw [hlength]; decide)

end Cuts

end Recordings

end EzvizBridge
