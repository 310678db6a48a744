import EzvizBridge.Recordings.Chunking
import EzvizBridge.SceneTrove.Completion

/-!
# What is published and who accepts it

The bridge tests for MPEG-PS and MPEG-TS in three places. `media_alignment` starts a recording where
it sees a pack code or three sync bytes; `inspect_media` tests the file that recovery finds; and
`matches_prefix` tests what a pull has fetched. All of them look at the same bytes, but
`inspect_media` wants three whole packets of a transport stream where the others are content with
the first byte of the third one.

So a published file is accepted by all of them, unless it is a transport stream that was stopped
within its first three packets (`published_accepted_iff`).
-/

namespace EzvizBridge

namespace SceneTrove

open Recordings

/-- Everyone who reads the published file accepts it: recovery, which makes an active manifest
`ready` with the type that the writer chose, and a pull that has learned this type from the
manifest. -/
structure Accepted (sha256 : Sha256) (file : Bytes) (format : RecordingFormat) : Prop where
  inspected : inspectMedia sha256 (some file) = .ok (some (file.length, sha256 file))
  recovered : ∀ (d : Directory) (now : Timestamp) (m : RecordingManifest),
    Keyed.Distinct Prod.fst d → d.Single → (SpoolFile.media m.recordingId format, file) ∈ d →
    m.isActive = true →
    (recoverManifest sha256 d now m).status = .ready ∧
      (recoverManifest sha256 d now m).mediaType = format.mediaType
  matched : ∃ f, MediaFormat.fromMediaType format.mediaType = some f ∧
    f.matchesPrefix (file.take probeBytes) = true
  pulled : ∀ request m name mediaType, nameOf request m = .ok name →
    m.mediaType = format.mediaType →
    download sha256 request m name mediaType file ≠ .error .format

/-- No transport stream is found at a chunk boundary, or three packets of it are received. -/
def LongEnough (arrivals : List Arrival) : Prop :=
  ∀ early late o, arrivals = early ++ late →
    mediaAlignment (streamOf early) = some (o, .mpegTs) →
    o + tsPacketBytes * 3 ≤ (streamOf arrivals).length

section

variable {cfg : Config} {sha256 : Sha256} {arrivals : List Arrival} {file : Bytes}
  {format : RecordingFormat} {x : Written}

theorem fromMediaType_mediaType (format : RecordingFormat) :
    ∃ f, MediaFormat.fromMediaType format.mediaType = some f := by
  cases format with
  | mpegPs => exact ⟨_, rfl⟩
  | mpegTs => exact ⟨_, rfl⟩

theorem accepted_iff (h : Starts format file) :
    Accepted sha256 file format ↔ (format = .mpegTs → tsPacketBytes * 3 ≤ file.length) := by
  rw [← validHeader_iff h]
  constructor
  · intro haccepted
    have hinspected := haccepted.inspected
    rw [inspectMedia_eq] at hinspected
    split_ifs at hinspected with hvalid
    exact hvalid
  · intro hvalid
    refine ⟨?_, ?_, ?_, ?_⟩
    · rw [inspectMedia_eq, if_pos hvalid]
    · intro d now m hnames hsingle hmem hactive
      obtain ⟨hready, htype, -⟩ :=
        (recoverManifest_of_mem hnames hsingle hmem).1 hactive hvalid
      exact ⟨hready, htype⟩
    · obtain ⟨f, hf⟩ := fromMediaType_mediaType format
      exact ⟨f, hf, matchesPrefix_of_starts hf h⟩
    · intro request m name mediaType hname htype hdownload
      have hmatches := matchesPrefix_of_starts (htype ▸ (nameOf_fields hname).2) h
      unfold download at hdownload
      rw [hmatches, if_neg (by decide : ¬ ¬ (true = true))] at hdownload
      split_ifs at hdownload
      · exact nomatch hdownload
      · exact nomatch hdownload
      · exact nomatch hdownload

/-- Every published recording is accepted by everyone, except for transport streams of less than
three packets. -/
theorem published_accepted_iff (hcfg : cfg.Bounded)
    (h : writePartial cfg arrivals = (file, .flushing x)) :
    Accepted sha256 file x.format ↔ LongEnough (taken [] arrivals) := by
  obtain ⟨hdigest, hholds, o, hfirst, hfile⟩ := writePartial_outcome hcfg h
  have hstarts : Starts x.format file := hdigest ▸ hholds.starts
  have hpos := length_pos_of_starts hstarts
  rw [accepted_iff hstarts]
  rw [hfile, List.length_drop] at hpos ⊢
  constructor
  · intro hlength early late o' hsplit hts
    -- what is found at this boundary is what the recording was started with
    have hfound : (o, x.format) = (o', .mpegTs) := by
      rw [hsplit, List.map_append] at hfirst
      exact firstAlignment_eq_of_boundary rfl hfirst hts
    obtain ⟨rfl, hformat⟩ := Prod.mk.inj hfound
    have := hlength hformat
    omega
  · intro hlong hformat
    rw [hformat] at hfirst
    obtain ⟨early, late, hsplit, hts⟩ := exists_boundary hfirst
    obtain ⟨early, late, heq, rfl, rfl⟩ := List.map_eq_append_iff.mp hsplit
    have := hlong early late o heq hts
    omega

def sampleArrivals : List Arrival :=
  [{ source := [0x00, 0x00] }, { source := [0x01, 0xba, 1, 2, 3, 4], stop := true },
    { source := [5] }]

theorem published_accepted_iff_sample :
    ∃ x, writePartial Manager.sampleConfig sampleArrivals =
        ([0x00, 0x00, 0x01, 0xba, 1, 2, 3, 4], .flushing x) ∧
      Accepted Manager.sampleSha256 [0x00, 0x00, 0x01, 0xba, 1, 2, 3, 4] x.format := by
  have hcfg : Manager.sampleConfig.Bounded := ⟨by decide, by decide⟩
  have hrun : writePartial Manager.sampleConfig sampleArrivals =
      ([0x00, 0x00, 0x01, 0xba, 1, 2, 3, 4],
        .flushing { startedAt := 0, bytes := 8, digest := [0x00, 0x00, 0x01, 0xba, 1, 2, 3, 4],
                    format := .mpegPs }) := by
    decide +kernel
  refine ⟨_, hrun, (published_accepted_iff hcfg hrun).mpr ?_⟩
  intro early late o hsplit hts
  -- eight bytes are too few for three sync bytes
  exfalso
  have hsync := syncedAt_bound (mediaAlignment_eq_ts.mp hts).2.2.1
  have hlength : (streamOf (taken [] sampleArrivals)).length = 8 := by decide +kernel
  rw [hsplit, streamOf_append, List.length_append] at hlength
  omega

/-- A transport stream that ends with the first byte of its third packet. -/
def shortPackets : Bytes := samplePacket ++ samplePacket ++ [0x47]

/-- It is recorded and published, but recovery does not accept the file. -/
theorem short_packets_rejected :
    ∃ x, writePartial Manager.sampleConfig [{ source := shortPackets }] =
        (shortPackets, .flushing x) ∧ x.format = .mpegTs ∧
      inspectMedia Manager.sampleSha256 (some shortPackets) =
        .error (.recording "recovered media has no MPEG-PS or MPEG-TS header") ∧
      ∀ m : RecordingManifest, m.isActive = true →
        (recoverManifest Manager.sampleSha256
          [(.media m.recordingId .mpegTs, shortPackets)] 0 m).status =
          .failed := by
  have hcfg : Manager.sampleConfig.Bounded := ⟨by decide, by decide⟩
  have hts : mediaAlignment shortPackets = some (0, .mpegTs) := by
    refine mediaAlignment_eq_ts.mpr ⟨fun q hq => ?_, by decide, by decide +kernel, nofun⟩
    have hno : 0x01 ∉ shortPackets := by decide +kernel
    exact hno (List.mem_of_mem_take hq.mem_take)
  have hrun := writePartial_single hcfg hts (by decide +kernel)
  have hinvalid : validHeader (shortPackets.take (tsPacketBytes * 3)) = false := by decide +kernel
  refine ⟨_, hrun, rfl, ?_, ?_⟩
  · rw [inspectMedia_eq, hinvalid]
    rfl
  · intro m hactive
    have hnames : Keyed.Distinct Prod.fst [(SpoolFile.media m.recordingId .mpegTs, shortPackets)] :=
      List.nodup_singleton _
    have hsingle : Directory.Single [(SpoolFile.media m.recordingId .mpegTs, shortPackets)] := by
      intro e he e' he' _ _ _
      rw [List.mem_singleton.mp he, List.mem_singleton.mp he']
    exact (recoverManifest_of_mem hnames hsingle (List.mem_singleton.mpr rfl)).2.1 hactive hinvalid

end

end SceneTrove

end EzvizBridge
