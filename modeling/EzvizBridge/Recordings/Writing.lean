import EzvizBridge.Recordings.Recovery

/-!
# The loop of `write_partial`

`write_partial` collects chunks until `media_alignment` finds the start of the media in what it has
collected, and writes everything from there on. This module runs the loop of the manager's model
over whole streams and says what is in the file.

`media_alignment` on the first `n` bytes of a stream is decided by two positions: the first pack
code `p` of the stream, which is seen once `p + 4 ≤ n`, and the first offset `o` with three sync
bytes, which is seen once `o + 377 ≤ n` as long as the pack code is not (`mediaAlignment_take_ps`,
`mediaAlignment_take_ts`). What is found at the first chunk boundary at which anything is found is
what the recording starts with (`firstAlignment`, `receiveAll_outcome`). A stop after `stop_after`
amounts to the end of the stream (`writePartial_taken`).
-/

namespace EzvizBridge

namespace Recordings

open Manager

/-! ### The loop of `write_partial` -/

/-- What the loop takes off the receiver: the chunk, the time, and whether `stop_after` has elapsed
once the chunk is written. -/
structure Arrival where
  source : Bytes
  now : Timestamp := 0
  stop : Bool := false
  deriving DecidableEq, Repr

/-- One pass of the loop, if it is still running. -/
def pass (cfg : Config) : Bytes × JobPhase → Arrival → Bytes × JobPhase
  | (file, .writing writer), arrival =>
    receive cfg file writer arrival.source arrival.now arrival.stop none
  | ended, _ => ended

/-- The loop of `write_partial`, over the partial file. -/
def receiveAll (cfg : Config) (arrivals : List Arrival) : Bytes × JobPhase :=
  arrivals.foldl (pass cfg) ([], .writing {})

/-- The receiver is closed. -/
def closed : Bytes × JobPhase → Bytes × JobPhase
  | (file, .writing writer) =>
    (file,
      match writer.finish with
      | .error error => .discarding error
      | .ok written => .flushing written)
  | ended => ended

/-- `write_partial`, where no file operation fails: the file and what became of the loop. -/
def writePartial (cfg : Config) (arrivals : List Arrival) : Bytes × JobPhase :=
  closed (receiveAll cfg arrivals)

/-! ### What `media_alignment` finds -/

/-- A pack code at `p`. -/
def PackAt (data : Bytes) (p : ℕ) : Prop := packStart <+: data.drop p

/-- The first pack code is at `p`. -/
def FirstPack (data : Bytes) (p : ℕ) : Prop := PackAt data p ∧ ∀ q < p, ¬ PackAt data q

/-- The first three sync bytes that are looked for are at `o`. -/
def FirstSync (data : Bytes) (o : ℕ) : Prop :=
  o < tsPacketBytes ∧ syncedAt data o = true ∧ ∀ q < o, syncedAt data q = false

section Alignment

variable {data : Bytes} {n o p : ℕ}

theorem PackAt.bound (h : PackAt data p) : p + 4 ≤ data.length := by
  have hlength := h.length_le
  rw [List.length_drop] at hlength
  have hpack : packStart.length = 4 := rfl
  omega

theorem syncedAt_bound (h : syncedAt data o = true) : o + 377 ≤ data.length := by
  obtain ⟨-, -, h₂⟩ := of_decide_eq_true h
  obtain ⟨hlt, -⟩ := List.getElem?_eq_some_iff.mp h₂
  exact hlt

theorem PackAt.mem_take (h : PackAt data p) : 0x01 ∈ data.take (p + 3) := by
  obtain ⟨rest, hrest⟩ := h
  rw [List.take_add, ← hrest]
  exact List.mem_append_right _ (by simp [packStart])

/-- A pack code is there in a beginning exactly when it ends within it. -/
theorem packAt_take : PackAt (data.take n) p ↔ PackAt data p ∧ p + 4 ≤ n := by
  unfold PackAt
  rw [List.drop_take, List.prefix_take_iff]
  have hpack : packStart.length = 4 := rfl
  constructor
  · rintro ⟨h, hle⟩
    exact ⟨h, by omega⟩
  · rintro ⟨h, hle⟩
    exact ⟨h, by omega⟩

/-- So are the three sync bytes. -/
theorem syncedAt_take : syncedAt (data.take n) o = true ↔ syncedAt data o = true ∧ o + 377 ≤ n := by
  have hts : tsPacketBytes = 188 := rfl
  constructor
  · intro h
    have hbound := syncedAt_bound h
    rw [List.length_take] at hbound
    obtain ⟨h₀, h₁, h₂⟩ := of_decide_eq_true h
    -- all three bytes lie among the first `n`
    rw [List.getElem?_take_of_lt (by omega)] at h₀ h₁ h₂
    exact ⟨decide_eq_true ⟨h₀, h₁, h₂⟩, by omega⟩
  · rintro ⟨h, hn⟩
    obtain ⟨h₀, h₁, h₂⟩ := of_decide_eq_true h
    apply decide_eq_true
    rw [List.getElem?_take_of_lt (by omega), List.getElem?_take_of_lt (by omega),
      List.getElem?_take_of_lt (by omega)]
    exact ⟨h₀, h₁, h₂⟩

theorem FirstPack.eq {q : ℕ} (h : FirstPack data p) (h' : FirstPack data q) : p = q := by
  rcases Nat.lt_trichotomy p q with hlt | heq | hlt
  · exact absurd h.1 (h'.2 p hlt)
  · exact heq
  · exact absurd h'.1 (h.2 q hlt)

theorem FirstSync.eq {q : ℕ} (h : FirstSync data o) (h' : FirstSync data q) : o = q := by
  rcases Nat.lt_trichotomy o q with hlt | heq | hlt
  · exact absurd h.2.1 (by simp [h'.2.2 o hlt])
  · exact heq
  · exact absurd h'.2.1 (by simp [h.2.2 q hlt])

theorem exists_firstPack (h : PackAt data p) : ∃ q ≤ p, FirstPack data q := by
  classical
  have hex : ∃ q, PackAt data q := ⟨p, h⟩
  exact ⟨Nat.find hex, Nat.find_min' hex h, Nat.find_spec hex, fun q hq => Nat.find_min hex hq⟩

/-- The search for the pack code. -/
theorem find_pack_eq_some :
    ((List.range data.length).find? fun offset => packStart.isPrefixOf (data.drop offset)) =
      some p ↔
      FirstPack data p := by
  -- `find?` over the offsets is the first one with the code
  rw [List.find?_range_eq_some]
  simp only [List.isPrefixOf_iff_prefix, List.mem_range, Bool.not_eq_true', FirstPack, PackAt,
    ← Bool.not_eq_true]
  constructor
  · rintro ⟨h, -, hmin⟩
    exact ⟨h, hmin⟩
  · rintro ⟨h, hmin⟩
    have hbound := PackAt.bound h
    exact ⟨h, by omega, hmin⟩

/-- Nothing is found when no code is there. -/
theorem find_pack_eq_none :
    ((List.range data.length).find? fun offset => packStart.isPrefixOf (data.drop offset)) = none ↔
      ∀ q, ¬ PackAt data q := by
  constructor
  · intro h q hq
    obtain ⟨p, -, hp⟩ := exists_firstPack hq
    exact nomatch h.symm.trans (find_pack_eq_some.mpr hp)
  · intro h
    rw [Option.eq_none_iff_forall_ne_some]
    intro p hp
    exact h p (find_pack_eq_some.mp hp).1

/-- The search for the sync bytes. -/
theorem find_sync_eq_some :
    (List.range (min data.length tsPacketBytes)).find? (syncedAt data) = some o ↔
      FirstSync data o := by
  rw [List.find?_range_eq_some]
  simp only [List.mem_range, Bool.not_eq_true', FirstSync]
  constructor
  · rintro ⟨h, hlt, hmin⟩
    exact ⟨by omega, h, hmin⟩
  · rintro ⟨hlt, h, hmin⟩
    have hbound := syncedAt_bound h
    exact ⟨h, by omega, hmin⟩

theorem mediaAlignment_eq_ps : mediaAlignment data = some (p, .mpegPs) ↔ FirstPack data p := by
  rw [← find_pack_eq_some, mediaAlignment]
  cases (List.range data.length).find? fun offset => packStart.isPrefixOf (data.drop offset) with
  | some q => simp
  | none => simp

/-- A transport stream is found at its first sync bytes, unless there is a pack code. -/
theorem mediaAlignment_eq_ts :
    mediaAlignment data = some (o, .mpegTs) ↔ (∀ q, ¬ PackAt data q) ∧ FirstSync data o := by
  rw [← find_pack_eq_none, ← find_sync_eq_some, mediaAlignment]
  cases (List.range data.length).find? fun offset => packStart.isPrefixOf (data.drop offset) with
  | some q => simp
  | none => simp

/-- A pack code is found as soon as it is complete. -/
theorem mediaAlignment_take_ps :
    mediaAlignment (data.take n) = some (p, .mpegPs) ↔ FirstPack data p ∧ p + 4 ≤ n := by
  rw [mediaAlignment_eq_ps]
  unfold FirstPack
  constructor
  · rintro ⟨h, hmin⟩
    obtain ⟨hpack, hn⟩ := packAt_take.mp h
    refine ⟨⟨hpack, fun q hq hq' => ?_⟩, hn⟩
    exact hmin q hq (packAt_take.mpr ⟨hq', by omega⟩)
  · rintro ⟨⟨h, hmin⟩, hn⟩
    exact ⟨packAt_take.mpr ⟨h, hn⟩, fun q hq hq' => hmin q hq (packAt_take.mp hq').1⟩

/-- The sync bytes are found as soon as the third one is there, unless a pack code is. -/
theorem mediaAlignment_take_ts :
    mediaAlignment (data.take n) = some (o, .mpegTs) ↔
      FirstSync data o ∧ o + 377 ≤ n ∧ ∀ p, FirstPack data p → n < p + 4 := by
  rw [mediaAlignment_eq_ts]
  unfold FirstSync
  constructor
  · rintro ⟨hpack, hlt, h, hmin⟩
    obtain ⟨hsync, hn⟩ := syncedAt_take.mp h
    refine ⟨⟨hlt, hsync, fun q hq => ?_⟩, hn, fun p hp => ?_⟩
    · -- an earlier offset would be complete earlier
      rw [← Bool.not_eq_true]
      intro hq'
      have hfound : syncedAt (data.take n) q = true := syncedAt_take.mpr ⟨hq', by omega⟩
      exact absurd hfound (by simp [hmin q hq])
    -- a pack code that is complete would be found
    · by_contra hle
      exact hpack p (packAt_take.mpr ⟨hp.1, by omega⟩)
  · rintro ⟨⟨hlt, hsync, hmin⟩, hn, hpack⟩
    refine ⟨fun q hq => ?_, hlt, syncedAt_take.mpr ⟨hsync, hn⟩, fun q hq => ?_⟩
    -- the first pack code is not complete yet
    · obtain ⟨hq', hle⟩ := packAt_take.mp hq
      obtain ⟨p, hp, hfirst⟩ := exists_firstPack hq'
      have := hpack p hfirst
      omega
    · rw [← Bool.not_eq_true]
      intro hq'
      exact absurd (syncedAt_take.mp hq').1 (by simp [hmin q hq])

/-- While neither is complete, nothing is found. -/
theorem mediaAlignment_take_none (hpack : ∀ p, FirstPack data p → n < p + 4)
    (hsync : ∀ o, FirstSync data o → n < o + 377) : mediaAlignment (data.take n) = none := by
  rw [Option.eq_none_iff_forall_ne_some]
  rintro ⟨q, format⟩ hq
  cases format with
  | mpegPs =>
    obtain ⟨hfirst, hle⟩ := mediaAlignment_take_ps.mp hq
    exact absurd (hpack q hfirst) (by omega)
  | mpegTs =>
    obtain ⟨hfirst, hle, -⟩ := mediaAlignment_take_ts.mp hq
    exact absurd (hsync q hfirst) (by omega)

/-- Nothing has been found in `n` bytes, so the sync bytes are not complete. -/
theorem lt_of_mediaAlignment_none (hsync : FirstSync data o)
    (hn : mediaAlignment (data.take n) = none) : n < o + 377 := by
  by_contra hle
  by_cases hpack : ∃ p, FirstPack data p ∧ p + 4 ≤ n
  · obtain ⟨p, hp⟩ := hpack
    exact nomatch hn.symm.trans (mediaAlignment_take_ps.mpr hp)
  · have hts : mediaAlignment (data.take n) = some (o, .mpegTs) := by
      refine mediaAlignment_take_ts.mpr ⟨hsync, by omega, fun p hp => ?_⟩
      by_contra hlt
      exact hpack ⟨p, hp, by omega⟩
    exact nomatch hn.symm.trans hts

/-- Whatever is found at a boundary, something is found in the whole stream. -/
theorem mediaAlignment_ne_none_of_take {format : RecordingFormat}
    (h : mediaAlignment (data.take n) = some (o, format)) : mediaAlignment data ≠ none := by
  intro hnone
  -- each format is found again in the whole stream
  cases format with
  | mpegPs =>
    have hps := mediaAlignment_eq_ps.mpr (mediaAlignment_take_ps.mp h).1
    exact nomatch hnone.symm.trans hps
  | mpegTs =>
    obtain ⟨hsync, -, -⟩ := mediaAlignment_take_ts.mp h
    have hlt : data.length < o + 377 :=
      lt_of_mediaAlignment_none hsync (by rwa [List.take_length])
    have := syncedAt_bound hsync.2.1
    omega

end Alignment

/-! ### The first boundary at which the media start -/

/-- What `media_alignment` finds at the first chunk boundary at which it finds anything, if the
buffer is `before` so far. -/
def firstAlignment (before : Bytes) : List Bytes → Option (ℕ × RecordingFormat)
  | [] => none
  | source :: rest =>
    match mediaAlignment (before ++ source) with
    | some found => some found
    | none => firstAlignment (before ++ source) rest

section FirstAlignment

variable {before : Bytes} {sources : List Bytes} {o : ℕ} {format : RecordingFormat}

/-- The end of the stream is a boundary. -/
theorem mediaAlignment_of_firstAlignment_none (hbefore : mediaAlignment before = none)
    (h : firstAlignment before sources = none) :
    mediaAlignment (before ++ sources.flatten) = none := by
  induction sources generalizing before with
  | nil => rwa [List.flatten_nil, List.append_nil]
  | cons source rest ih =>
    rw [firstAlignment] at h
    split at h
    · exact nomatch h
    · rename_i hnone
      rw [List.flatten_cons, ← List.append_assoc]
      exact ih hnone h

/-- The boundary at which the media are found, and the one before it. -/
theorem boundaries_of_firstAlignment {size : ℕ} (hsize : ∀ source ∈ sources, source.length ≤ size)
    (hbefore : mediaAlignment before = none)
    (h : firstAlignment before sources = some (o, format)) :
    ∃ m n, n ≤ m + size ∧ mediaAlignment ((before ++ sources.flatten).take m) = none ∧
      mediaAlignment ((before ++ sources.flatten).take n) = some (o, format) := by
  -- on the chunks, with what has arrived before
  induction sources generalizing before with
  | nil => exact nomatch h
  | cons source rest ih =>
    rw [List.flatten_cons, ← List.append_assoc]
    rw [firstAlignment] at h
    split at h
    -- found at this boundary: the one before it is where this chunk began
    · rename_i found hfound
      obtain rfl := Option.some.inj h
      refine ⟨before.length, (before ++ source).length, ?_, ?_, ?_⟩
      · rw [List.length_append]
        have := hsize source (List.mem_cons_self ..)
        omega
      · rwa [List.append_assoc, List.take_left]
      · rwa [List.take_left]
    -- not yet
    · rename_i hnone
      exact ih (fun c hc => hsize c (List.mem_cons_of_mem _ hc)) hnone h

/-- What is found first is found at the end of some chunk. -/
theorem exists_boundary (h : firstAlignment before sources = some (o, format)) :
    ∃ early late, sources = early ++ late ∧
      mediaAlignment (before ++ early.flatten) = some (o, format) := by
  induction sources generalizing before with
  | nil => exact nomatch h
  | cons source rest ih =>
    rw [firstAlignment] at h
    split at h
    · rename_i found hfound
      obtain rfl := Option.some.inj h
      refine ⟨[source], rest, rfl, ?_⟩
      rwa [List.flatten_singleton]
    · obtain ⟨early, late, rfl, hfound⟩ := ih h
      refine ⟨source :: early, late, rfl, ?_⟩
      rwa [List.flatten_cons, ← List.append_assoc]

/-- The offset lies within the data. -/
theorem offset_le_of_mediaAlignment {data : Bytes} (h : mediaAlignment data = some (o, format)) :
    o ≤ data.length := by
  cases format with
  | mpegPs =>
    have := (mediaAlignment_eq_ps.mp h).1.bound
    omega
  | mpegTs =>
    have := syncedAt_bound (mediaAlignment_eq_ts.mp h).2.2.1
    omega

end FirstAlignment

/-! ### Runs of the loop -/

section Loop

variable {cfg : Config} {file : Bytes} {w : Writer} {a : Arrival} {arrivals : List Arrival}

/-- The bytes that arrive. -/
def streamOf (arrivals : List Arrival) : Bytes := (arrivals.map (·.source)).flatten

@[simp] theorem streamOf_nil : streamOf [] = [] := rfl

/-- The stream begins with the first chunk. -/
@[simp] theorem streamOf_cons : streamOf (a :: arrivals) = a.source ++ streamOf arrivals := rfl

theorem streamOf_append {late : List Arrival} :
    streamOf (arrivals ++ late) = streamOf arrivals ++ streamOf late := by
  rw [streamOf, List.map_append, List.flatten_append, streamOf, streamOf]

/-- The loop does not go on once it has ended. -/
theorem foldl_pass_ended {phase : JobPhase} (h : ∀ w, phase ≠ .writing w) :
    arrivals.foldl (pass cfg) (file, phase) = (file, phase) := by
  induction arrivals with
  | nil => rfl
  | cons a rest ih =>
    have hpass : pass cfg (file, phase) a = (file, phase) := by
      cases phase <;> first | rfl | exact absurd rfl (h _)
    rw [List.foldl_cons, hpass, ih]

/-- The sum is cut off only above every byte limit. -/
theorem reserve_eq (hcfg : cfg.Bounded) (w : Writer) (chunk : Bytes) :
    w.reserve cfg.maxBytes chunk =
      if cfg.maxBytes < w.written + chunk.length then
        .error (.capacity "recording reached the configured byte limit")
      else .ok { w with digest := w.digest ++ chunk, written := w.written + chunk.length } := by
  have hbound := hcfg.maxBytes
  unfold Writer.reserve saturatingAdd
  by_cases hmax : cfg.maxBytes < w.written + chunk.length
  · have hsum : cfg.maxBytes < min (w.written + chunk.length) u64Max := by omega
    simp only [hmax, hsum, if_true]
  · have hsum : min (w.written + chunk.length) u64Max = w.written + chunk.length := by omega
    simp only [hmax, hsum, if_false]

/-- A pass of the loop before the media have started. -/
theorem pass_before (hcfg : cfg.Bounded) (hstarted : w.startedAt = none) (hwritten : w.written = 0)
    (hstop : a.stop = false) :
    match mediaAlignment (w.alignment ++ a.source) with
    | none => pass cfg (file, .writing w) a =
        if 1024 * 1024 < (w.alignment ++ a.source).length then
          (file, .discarding (.recording "MPEG-PS or MPEG-TS alignment was not found"))
        else (file, .writing { w with alignment := w.alignment ++ a.source })
    | some (o, format) => pass cfg (file, .writing w) a =
        if cfg.maxBytes < ((w.alignment ++ a.source).drop o).length then
          (file, .discarding (.capacity "recording reached the configured byte limit"))
        else
          (file ++ (w.alignment ++ a.source).drop o,
            .writing { w with
              digest := w.digest ++ (w.alignment ++ a.source).drop o
              written := ((w.alignment ++ a.source).drop o).length
              alignment := (w.alignment ++ a.source).take o
              startedAt := some a.now
              format := some format }) := by
  split
  -- `align` keeps the bytes until the buffer is longer than a megabyte
  · rename_i hnone
    simp only [pass, receive, Writer.align, hstarted, hnone, Option.isSome_none, Bool.false_eq_true,
      if_false]
    by_cases hlong : 1024 * 1024 < (w.alignment ++ a.source).length
    · simp only [hlong, if_true]
    · simp only [hlong, if_false]
  -- `align` hands over the bytes from the offset on, and `reserve` checks the limit
  · rename_i o format hsome
    simp only [pass, receive, Writer.align, hstarted, hsome, Option.isSome_none, Bool.false_eq_true,
      if_false, reserve_eq hcfg, hwritten, Nat.zero_add, hstop]
    by_cases hmax : cfg.maxBytes < ((w.alignment ++ a.source).drop o).length
    · simp only [hmax, if_true]
    · simp only [hmax, if_false]

/-- A pass of the loop after the media have started. -/
theorem pass_started (hcfg : cfg.Bounded) (hstarted : w.startedAt.isSome = true)
    (hwritten : w.written = file.length) (hstop : a.stop = false) :
    pass cfg (file, .writing w) a =
      if cfg.maxBytes < (file ++ a.source).length then
        (file, .discarding (.capacity "recording reached the configured byte limit"))
      else
        (file ++ a.source, .writing { w with
          digest := w.digest ++ a.source
          written := (file ++ a.source).length }) := by
  -- `align` hands the chunk through
  simp only [pass, receive, Writer.align, hstarted, if_true, reserve_eq hcfg, hwritten, hstop,
    Bool.false_eq_true, ← List.length_append]
  by_cases hmax : cfg.maxBytes < (file ++ a.source).length
  · simp only [hmax, if_true]
  · simp only [hmax, if_false]

/-- The media have started: everything that arrives is added to the file, and only the byte limit
can end the loop. -/
theorem foldl_pass_started (hcfg : cfg.Bounded) (hstop : ∀ a ∈ arrivals, a.stop = false)
    (hstarted : w.startedAt.isSome = true) (hwritten : w.written = file.length) :
    (∀ file' w', arrivals.foldl (pass cfg) (file, .writing w) = (file', .writing w') →
      file' = file ++ streamOf arrivals ∧ w'.format = w.format ∧ w'.alignment = w.alignment) ∧
    ((file ++ streamOf arrivals).length ≤ cfg.maxBytes →
      ∃ file' w', arrivals.foldl (pass cfg) (file, .writing w) = (file', .writing w')) := by
  -- on the arrivals that are left
  induction arrivals generalizing file w with
  | nil =>
    refine ⟨?_, fun _ => ⟨file, w, rfl⟩⟩
    rintro file' w' h
    obtain ⟨rfl, hw⟩ := Prod.mk.inj h
    obtain rfl := JobPhase.writing.inj hw
    exact ⟨(List.append_nil _).symm, rfl, rfl⟩
  -- each of them is added, up to the limit
  | cons a rest ih =>
    rw [List.foldl_cons, pass_started hcfg hstarted hwritten (hstop a (List.mem_cons_self ..)),
      streamOf_cons, ← List.append_assoc]
    split_ifs with hmax
    · -- the loop ends here
      rw [foldl_pass_ended (by nofun)]
      refine ⟨fun file' w' h => (nomatch (Prod.mk.inj h).2), fun hroom => ?_⟩
      rw [List.length_append] at hroom
      -- the loop goes on behind this chunk
      omega
    · obtain ⟨hend, hroom⟩ := @ih (file ++ a.source)
        { w with digest := w.digest ++ a.source, written := (file ++ a.source).length }
        (fun b hb => hstop b (List.mem_cons_of_mem _ hb)) hstarted rfl
      exact ⟨hend, hroom⟩

/-- What a writer that has taken `stream` holds, by what was found at the first boundary. -/
def Outcome (stream : Bytes) : Option (ℕ × RecordingFormat) → Bytes → Writer → Prop
  | none, file, w => file = [] ∧ w.format = none ∧ w.alignment = stream ∧ w.startedAt = none
  | some (o, format), file, w =>
    file = stream.drop o ∧ w.format = some format ∧ w.alignment = stream.take o

/-- Where the chunks end decides where the media start; from there on everything is kept. -/
theorem foldl_pass_before (hcfg : cfg.Bounded) (hstop : ∀ a ∈ arrivals, a.stop = false)
    (hstarted : w.startedAt = none) (hwritten : w.written = 0) (hformat : w.format = none) :
    (∀ file w', arrivals.foldl (pass cfg) ([], .writing w) = (file, .writing w') →
      Outcome (w.alignment ++ streamOf arrivals)
        (firstAlignment w.alignment (arrivals.map (·.source))) file w') ∧
    (∀ o format, firstAlignment w.alignment (arrivals.map (·.source)) = some (o, format) →
      ((w.alignment ++ streamOf arrivals).drop o).length ≤ cfg.maxBytes →
      (∀ n ≤ (w.alignment ++ streamOf arrivals).length,
        mediaAlignment ((w.alignment ++ streamOf arrivals).take n) = none → n ≤ 1024 * 1024) →
      ∃ file w', arrivals.foldl (pass cfg) ([], .writing w) = (file, .writing w')) := by
  -- on the arrivals; the buffer holds what came before
  induction arrivals generalizing w with
  | nil =>
    refine ⟨?_, fun o format h => (nomatch h)⟩
    rintro file w' h
    obtain ⟨rfl, hw⟩ := Prod.mk.inj h
    obtain rfl := JobPhase.writing.inj hw
    exact ⟨rfl, hformat, (List.append_nil _).symm, hstarted⟩
  | cons a rest ih =>
    have hrest : ∀ b ∈ rest, b.stop = false := fun b hb => hstop b (List.mem_cons_of_mem _ hb)
    have hpass := @pass_before cfg [] w a hcfg hstarted hwritten (hstop a (List.mem_cons_self ..))
    rw [List.foldl_cons, List.map_cons, firstAlignment, streamOf_cons, ← List.append_assoc]
    cases hfound : mediaAlignment (w.alignment ++ a.source) with
    -- nothing is found at this boundary
    | none =>
      rw [hfound] at hpass
      dsimp only at hpass ⊢
      rw [hpass]
      split_ifs with hlong
      · rw [foldl_pass_ended (by nofun)]
        refine ⟨fun file w' h => (nomatch (Prod.mk.inj h).2), fun o format _ _ hsmall => ?_⟩
        -- the buffer is longer than a megabyte
        have hle := hsmall (w.alignment ++ a.source).length (by simp) (by rwa [List.take_left])
        omega
      · exact @ih { w with alignment := w.alignment ++ a.source } hrest hstarted hwritten hformat
    -- the media start with this chunk
    | some found =>
      obtain ⟨o, format⟩ := found
      rw [hfound] at hpass
      dsimp only at hpass ⊢
      have hoffset := offset_le_of_mediaAlignment hfound
      have hdrop : (w.alignment ++ a.source).drop o ++ streamOf rest =
          (w.alignment ++ a.source ++ streamOf rest).drop o :=
        (List.drop_append_of_le_length hoffset).symm
      rw [hpass]
      split_ifs with hmax
      -- the first bytes are over the limit already
      · rw [foldl_pass_ended (by nofun)]
        refine ⟨fun file w' h => (nomatch (Prod.mk.inj h).2), fun o' format' h hroom _ => ?_⟩
        obtain ⟨rfl, -⟩ := Prod.mk.inj (Option.some.inj h)
        rw [← hdrop, List.length_append] at hroom
        omega
      -- from here on the media have started
      · rw [List.nil_append]
        obtain ⟨hend, hroom⟩ := @foldl_pass_started cfg ((w.alignment ++ a.source).drop o)
          { w with
            digest := w.digest ++ (w.alignment ++ a.source).drop o
            written := ((w.alignment ++ a.source).drop o).length
            alignment := (w.alignment ++ a.source).take o
            startedAt := some a.now
            format := some format } rest hcfg hrest rfl rfl
        rw [hdrop] at hend hroom
        -- the file begins at the offset, and the buffer holds what was in front of it
        refine ⟨fun file w' h => ?_, fun o' format' h hfits _ => ?_⟩
        · obtain ⟨hfile, hformat', halign⟩ := hend file w' h
          refine ⟨hfile, hformat', halign.trans ?_⟩
          exact (List.take_append_of_le_length hoffset).symm
        · obtain ⟨rfl, -⟩ := Prod.mk.inj (Option.some.inj h)
          exact hroom hfits

/-- What the loop has written so far is within the byte limit and starts as its format does. -/
theorem holds_foldl_pass (hcfg : cfg.Bounded) (hholds : w.Holds cfg.maxBytes file) :
    (∀ file' w', arrivals.foldl (pass cfg) (file, .writing w) = (file', .writing w') →
      w'.Holds cfg.maxBytes file') ∧
    (∀ file' x, arrivals.foldl (pass cfg) (file, .writing w) = (file', .flushing x) →
      x.digest = file' ∧ x.Holds cfg.maxBytes) := by
  -- on the arrivals, from any file that is within the limit
  induction arrivals generalizing file w with
  | nil =>
    refine ⟨fun file' w' h => ?_, fun file' x h => (nomatch (Prod.mk.inj h).2)⟩
    obtain ⟨rfl, hw⟩ := Prod.mk.inj h
    obtain rfl := JobPhase.writing.inj hw
    exact hholds
  | cons a rest ih =>
    rw [List.foldl_cons, pass]
    have hcases := @receive_cases cfg w file a.source a.now a.stop none hcfg hholds
    -- a chunk ends the loop with an error, leaves it writing, or stops it
    obtain ⟨e, hphase, -⟩ | ⟨w', hphase, hw'⟩ | ⟨x, hphase, hx⟩ := hcases
    all_goals
      generalize receive cfg file w a.source a.now a.stop none = state at *
      obtain ⟨file', phase⟩ := state
      obtain rfl := hphase
    -- an error publishes nothing
    · rw [foldl_pass_ended (by nofun)]
      exact ⟨fun _ _ h => (nomatch (Prod.mk.inj h).2), fun _ _ h => (nomatch (Prod.mk.inj h).2)⟩
    · exact ih hw'
    -- a stop flushes what was written
    · rw [foldl_pass_ended (by nofun)]
      refine ⟨fun _ _ h => (nomatch (Prod.mk.inj h).2), fun file'' x' h => ?_⟩
      obtain ⟨rfl, hx'⟩ := Prod.mk.inj h
      obtain rfl := JobPhase.flushing.inj hx'
      exact hx

theorem receiveAll_outcome {w : Writer} (hcfg : cfg.Bounded)
    (hstop : ∀ a ∈ arrivals, a.stop = false) (h : receiveAll cfg arrivals = (file, .writing w)) :
    Outcome (streamOf arrivals) (firstAlignment [] (arrivals.map (·.source))) file w :=
  (foldl_pass_before hcfg hstop rfl rfl rfl).1 file w h

/-- Nothing but the byte limit keeps the loop from the end of a stream that starts early. -/
theorem exists_receiveAll {o : ℕ} {format : RecordingFormat} (hcfg : cfg.Bounded)
    (hstop : ∀ a ∈ arrivals, a.stop = false)
    (hfirst : firstAlignment [] (arrivals.map (·.source)) = some (o, format))
    (hfits : (streamOf arrivals).length - o ≤ cfg.maxBytes)
    (hearly : ∀ n ≤ (streamOf arrivals).length,
      mediaAlignment ((streamOf arrivals).take n) = none → n ≤ 1024 * 1024) :
    ∃ file w, receiveAll cfg arrivals = (file, .writing w) ∧
      Outcome (streamOf arrivals) (some (o, format)) file w := by
  -- the limit is not reached
  have hlength : ((streamOf arrivals).drop o).length ≤ cfg.maxBytes := by rwa [List.length_drop]
  obtain ⟨file, w, h⟩ :=
    (foldl_pass_before (w := {}) hcfg hstop rfl rfl rfl).2 o format hfirst hlength hearly
  have houtcome := receiveAll_outcome hcfg hstop h
  rw [hfirst] at houtcome
  exact ⟨file, w, h, houtcome⟩

/-- A stream in one chunk. -/
theorem writePartial_single {stream : Bytes} {o : ℕ} {format : RecordingFormat} (hcfg : cfg.Bounded)
    (h : mediaAlignment stream = some (o, format)) (hfits : (stream.drop o).length ≤ cfg.maxBytes) :
    writePartial cfg [{ source := stream }] =
      (stream.drop o,
        .flushing
          { startedAt := 0
            bytes := (stream.drop o).length
            digest := stream.drop o
            format }) := by
  have hpass := @pass_before cfg [] {} { source := stream } hcfg rfl rfl rfl
  rw [List.nil_append, h] at hpass
  dsimp only at hpass
  rw [if_neg (Nat.not_lt.mpr hfits)] at hpass
  rw [writePartial, receiveAll, List.foldl_cons, List.foldl_nil, hpass]
  rfl

end Loop

/-! ### The stop point -/

/-- What the loop takes off the receiver when the buffer is `before`: everything up to the first
chunk after which `stop_after` has elapsed since the media started. -/
def taken (before : Bytes) : List Arrival → List Arrival
  | [] => []
  | a :: rest =>
    { a with stop := false } ::
      if a.stop = true ∧ mediaAlignment (before ++ a.source) ≠ none then []
      else taken (before ++ a.source) rest

section Stop

variable {cfg : Config} {file before : Bytes} {w : Writer} {a : Arrival} {arrivals : List Arrival}

/-- The chunks that are taken do not stop the loop. -/
theorem stop_of_mem_taken (h : a ∈ taken before arrivals) : a.stop = false := by
  induction arrivals generalizing before with
  | nil => exact absurd h List.not_mem_nil
  | cons b rest ih =>
    rw [taken] at h
    rcases List.mem_cons.mp h with rfl | h
    · rfl
    · split_ifs at h
      · exact absurd h List.not_mem_nil
      · exact ih h

/-- The writer has started exactly if there is something to start from in what has arrived. -/
def Writer.Tracks (w : Writer) (before : Bytes) : Prop :=
  (w.startedAt = none → w.alignment = before ∧ mediaAlignment before = none) ∧
    (w.startedAt ≠ none → mediaAlignment before ≠ none)

/-- What was found is found with more behind it. -/
theorem mediaAlignment_append_ne_none {more : Bytes} (h : mediaAlignment before ≠ none) :
    mediaAlignment (before ++ more) ≠ none := by
  obtain ⟨⟨o, format⟩, hfound⟩ := Option.ne_none_iff_exists'.mp h
  have hwhole : mediaAlignment ((before ++ more).take before.length) = some (o, format) := by
    rwa [List.take_left]
  exact mediaAlignment_ne_none_of_take hwhole

/-- What `align` makes of a chunk. -/
theorem Writer.Tracks.align {w' : Writer} {source : Bytes} {now : Timestamp} {chunk : Option Bytes}
    (h : w.Tracks before) (halign : w.align source now = .ok (chunk, w')) :
    w'.Tracks (before ++ source) ∧ (chunk = none ↔ w'.startedAt = none) := by
  unfold Writer.align at halign
  split_ifs at halign with hstarted
  -- the media have started before
  · obtain ⟨rfl, rfl⟩ := Prod.mk.inj (Except.ok.inj halign)
    have hne : w.startedAt ≠ none := Option.isSome_iff_ne_none.mp hstarted
    refine ⟨⟨fun hnone => absurd hnone hne, fun _ => ?_⟩, ⟨nofun, fun hnone => absurd hnone hne⟩⟩
    exact mediaAlignment_append_ne_none (h.2 hne)
  -- they have not: the buffer is all that has arrived
  · have hnone : w.startedAt = none := by simpa using hstarted
    obtain ⟨halignment, -⟩ := h.1 hnone
    dsimp only at halign
    rw [halignment] at halign
    split at halign
    -- nothing was found, and the buffer was short enough
    · rename_i hfound
      split_ifs at halign
      obtain ⟨rfl, rfl⟩ := Prod.mk.inj (Except.ok.inj halign)
      exact ⟨⟨fun _ => ⟨rfl, hfound⟩, fun hne => absurd hnone hne⟩, ⟨fun _ => hnone, fun _ => rfl⟩⟩
    -- found now
    · rename_i marker detected hfound
      obtain ⟨rfl, rfl⟩ := Prod.mk.inj (Except.ok.inj halign)
      refine ⟨⟨nofun, fun _ hfound' => ?_⟩, ⟨nofun, nofun⟩⟩
      exact nomatch hfound.symm.trans hfound'

/-- Once the media have started, a stop after a chunk amounts to the end of the stream. Before that
nothing is stopped. -/
theorem pass_stop (h : w.Tracks before) :
    (∃ w', pass cfg (file, .writing w) { a with stop := false } = (file, .writing w') ∧
      w'.Tracks (before ++ a.source) ∧ w'.startedAt = none ∧
      pass cfg (file, .writing w) a = (file, .writing w')) ∨
    (∃ file' w', pass cfg (file, .writing w) { a with stop := false } = (file', .writing w') ∧
      w'.Tracks (before ++ a.source) ∧ w'.startedAt ≠ none ∧
      pass cfg (file, .writing w) a =
        if a.stop then closed (file', .writing w') else (file', .writing w')) ∨
    (∃ error, pass cfg (file, .writing w) { a with stop := false } = (file, .discarding error) ∧
      pass cfg (file, .writing w) a = (file, .discarding error)) := by
  unfold pass receive
  dsimp only
  -- too much was buffered, or the chunk is handed on
  cases halign : w.align a.source a.now with
  | error error => exact .inr (.inr ⟨error, rfl, rfl⟩)
  | ok result =>
    obtain ⟨chunk, w₁⟩ := result
    obtain ⟨htracks, hchunk⟩ := h.align halign
    -- nothing has started, so a stop is not looked at
    cases chunk with
    | none => exact .inl ⟨w₁, rfl, htracks, hchunk.mp rfl, rfl⟩
    | some chunk =>
      have hstarted : w₁.startedAt ≠ none := fun hnone => nomatch hchunk.mpr hnone
      -- the limit, or the chunk is written
      cases hreserve : w₁.reserve cfg.maxBytes chunk with
      | error error => exact .inr (.inr ⟨error, by simp only [hreserve], by simp only [hreserve]⟩)
      | ok w₂ =>
        -- `reserve` counts, and changes neither the start nor the buffer
        obtain ⟨hkept, hbuffer⟩ : w₂.startedAt = w₁.startedAt ∧ w₂.alignment = w₁.alignment := by
          unfold Writer.reserve at hreserve
          dsimp only at hreserve
          split_ifs at hreserve
          obtain rfl := Except.ok.inj hreserve
          exact ⟨rfl, rfl⟩
        have htracks' : w₂.Tracks (before ++ a.source) := by
          unfold Writer.Tracks
          rw [hkept, hbuffer]
          exact htracks
        refine .inr (.inl ⟨file ++ chunk, w₂, ?_, htracks', hkept ▸ hstarted, ?_⟩)
        · simp only [hreserve, Bool.false_eq_true, if_false]
        · simp only [hreserve]
          cases a.stop <;> rfl

/-- A run with stops is one of the chunks up to the stop, closed at its end. -/
theorem closed_foldl_taken (h : w.Tracks before) :
    closed (arrivals.foldl (pass cfg) (file, .writing w)) =
      closed ((taken before arrivals).foldl (pass cfg) (file, .writing w)) := by
  -- on the arrivals
  induction arrivals generalizing file w before with
  | nil => rfl
  | cons a rest ih =>
    rw [taken, List.foldl_cons, List.foldl_cons]
    obtain ⟨w', hpass, htracks, hnone, hpass'⟩ | ⟨file', w', hpass, htracks, hstarted, hpass'⟩ |
      ⟨error, hpass, hpass'⟩ := @pass_stop cfg file before w a h
    · -- nothing has started, so the stop is not looked at
      rw [hpass, hpass', if_neg (fun hand => hand.2 (htracks.1 hnone).2)]
      exact ih htracks
    -- the media have started: a stop closes the file here
    · rw [hpass, hpass']
      cases hstop : a.stop with
      | true =>
        rw [if_pos rfl, if_pos ⟨rfl, htracks.2 hstarted⟩, List.foldl_nil]
        have hended : ∀ v, (closed (file', .writing w')).2 ≠ .writing v := by
          intro v
          dsimp only [closed]
          split <;> nofun
        have hfold : rest.foldl (pass cfg) (closed (file', .writing w')) =
            closed (file', .writing w') := foldl_pass_ended hended
        rw [hfold]
        dsimp only [closed]
        cases w'.finish <;> rfl
      | false =>
        rw [if_neg (by simp), if_neg (by simp)]
        exact ih htracks
    -- an error ends both runs
    · rw [hpass, hpass', foldl_pass_ended (by nofun), foldl_pass_ended (by nofun)]

/-- Whatever is not taken makes no difference. -/
theorem writePartial_taken (cfg : Config) (arrivals : List Arrival) :
    writePartial cfg arrivals = writePartial cfg (taken [] arrivals) :=
  closed_foldl_taken ⟨fun _ => ⟨rfl, rfl⟩, fun h => absurd rfl h⟩

/-- Without a stop the loop goes on until the stream ends or something goes wrong. -/
theorem foldl_pass_phase (hstop : ∀ a ∈ arrivals, a.stop = false) :
    (∃ file' w', arrivals.foldl (pass cfg) (file, .writing w) = (file', .writing w')) ∨
      ∃ file' error, arrivals.foldl (pass cfg) (file, .writing w) = (file', .discarding error) := by
  induction arrivals generalizing file w with
  | nil => exact .inl ⟨file, w, rfl⟩
  | cons a rest ih =>
    have hrest : ∀ b ∈ rest, b.stop = false := fun b hb => hstop b (List.mem_cons_of_mem _ hb)
    -- without a stop a chunk either fails or is written
    have hpass : (∃ file' w', pass cfg (file, .writing w) a = (file', .writing w')) ∨
        ∃ file' error, pass cfg (file, .writing w) a = (file', .discarding error) := by
      unfold pass receive
      dsimp only
      rw [hstop a (List.mem_cons_self ..)]
      split
      · exact .inr ⟨_, _, rfl⟩
      · exact .inl ⟨_, _, rfl⟩
      · split
        · exact .inr ⟨_, _, rfl⟩
        · rename_i heq
          exact nomatch heq
        · exact .inl ⟨_, _, rfl⟩
    rw [List.foldl_cons]
    obtain ⟨file', w', hpass⟩ | ⟨file', error, hpass⟩ := hpass
    · rw [hpass]
      exact ih hrest
    · rw [hpass, foldl_pass_ended (by nofun)]
      exact .inr ⟨file', error, rfl⟩

/-- A file that is published is the stream from where the media start up to the stop point. -/
theorem writePartial_outcome {x : Written} (hcfg : cfg.Bounded)
    (h : writePartial cfg arrivals = (file, .flushing x)) :
    x.digest = file ∧ x.Holds cfg.maxBytes ∧
      ∃ o, firstAlignment [] ((taken [] arrivals).map (·.source)) = some (o, x.format) ∧
        file = (streamOf (taken [] arrivals)).drop o := by
  have hstop : ∀ a ∈ taken [] arrivals, a.stop = false := fun a ha => stop_of_mem_taken ha
  have hempty : Writer.Holds cfg.maxBytes {} [] :=
    ⟨rfl, rfl, Nat.zero_le _, fun _ => rfl, fun _ h => nomatch h⟩
  -- only the chunks up to the stop matter
  rw [writePartial_taken, writePartial] at h
  obtain ⟨file', w', hrun⟩ | ⟨file', error, hrun⟩ := @foldl_pass_phase cfg [] {} _ hstop
  · have houtcome := receiveAll_outcome hcfg hstop hrun
    have hholds := (holds_foldl_pass hcfg hempty).1 file' w' hrun
    have hclosed : closed (file', .writing w') = (file, .flushing x) := hrun ▸ h
    dsimp only [closed] at hclosed
    -- the file was closed, so `finish` has found the start and the format
    cases hfinish : w'.finish with
    | error error =>
      rw [hfinish] at hclosed
      exact nomatch (Prod.mk.inj hclosed).2
    | ok written =>
      rw [hfinish] at hclosed
      obtain ⟨rfl, hx⟩ := Prod.mk.inj hclosed
      obtain rfl := JobPhase.flushing.inj hx
      obtain ⟨hdigest, hx⟩ := hholds.finish hfinish
      refine ⟨hdigest, hx, ?_⟩
      cases hfirst : firstAlignment [] ((taken [] arrivals).map (·.source)) with
      -- a file without a start is not finished
      | none =>
        rw [hfirst] at houtcome
        rw [Writer.finish, houtcome.2.2.2] at hfinish
        exact nomatch hfinish
      | some found =>
        obtain ⟨o, format⟩ := found
        rw [hfirst] at houtcome
        obtain ⟨hfile, hformat, -⟩ := houtcome
        -- the format in the metadata is the one that was found
        have heq : written.format = format := by
          unfold Writer.finish at hfinish
          rw [hformat] at hfinish
          split at hfinish
          · exact nomatch hfinish
          · rename_i hnone
            exact nomatch hnone
          · rename_i heq
            obtain rfl := Except.ok.inj hfinish
            exact (Option.some.inj heq).symm
        exact ⟨o, by rw [heq], hfile⟩
  -- an error publishes nothing
  · have hclosed : closed (file', .discarding error) = (file, .flushing x) := hrun ▸ h
    exact nomatch (Prod.mk.inj hclosed).2

/-- A transport stream that is found at some boundary is what was found at the first one. -/
theorem firstAlignment_eq_of_boundary {found : ℕ × RecordingFormat} {o : ℕ}
    {sources more : List Bytes} (hbefore : mediaAlignment before = none)
    (h : firstAlignment before (sources ++ more) = some found)
    (hts : mediaAlignment (before ++ sources.flatten) = some (o, .mpegTs)) :
    found = (o, .mpegTs) := by
  -- on the chunks in front of the boundary
  induction sources generalizing before with
  | nil =>
    rw [List.flatten_nil, List.append_nil] at hts
    exact nomatch hbefore.symm.trans hts
  | cons source rest ih =>
    rw [List.cons_append, firstAlignment] at h
    rw [List.flatten_cons, ← List.append_assoc] at hts
    cases hfound : mediaAlignment (before ++ source) with
    -- nothing was found at this one, so the first is later
    | none =>
      rw [hfound] at h
      exact ih hfound h hts
    -- found here: it has to be the same transport stream
    | some found' =>
      rw [hfound] at h
      obtain rfl := Option.some.inj h
      obtain ⟨o', format⟩ := found'
      obtain ⟨hpack, hsync⟩ := mediaAlignment_eq_ts.mp hts
      have hearlier : mediaAlignment
          ((before ++ source ++ rest.flatten).take (before ++ source).length) =
          some (o', format) := by
        rwa [List.take_left]
      cases format with
      | mpegPs => exact absurd (mediaAlignment_take_ps.mp hearlier).1.1 (hpack o')
      | mpegTs => rw [(mediaAlignment_take_ts.mp hearlier).1.eq hsync]

end Stop

end Recordings

end EzvizBridge
