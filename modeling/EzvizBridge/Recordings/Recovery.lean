import EzvizBridge.Recordings.Spool

/-!
# Recovery after a crash

Memory, journal and spool are updated in separate steps, so after a crash the journal may be behind
the spool. What holds at any time is `Described`: a recording has at most one media file, and every
manifest that is `ready`, in memory or in the journal, has the size, the digest and the type of that
file. A manifest that is `ready` may have lost its file, but it never has another one.

`recover` reads the size and the digest of the file that a recording had got when it was active, and
keeps those of the ones that were `ready`; so it ends with what `complete` has recorded or would
have (`recovery_publishes_written`).
-/

namespace EzvizBridge

namespace Recordings

/-! ### The media file of a manifest -/

namespace Directory

variable {d d' : Directory} {id : Uuid} {name : SpoolFile} {bytes : Bytes}

/-- No recording has two media files. -/
def Single (self : Directory) : Prop :=
  ∀ a ∈ self, ∀ b ∈ self, a.1.isMedia = true → b.1.isMedia = true → a.1.owner = b.1.owner → a = b

/-- Fewer files are still at most one for each recording. -/
theorem Single.of_subset (h : d.Single) (hsub : d' ⊆ d) : d'.Single :=
  fun a ha b hb => h a (hsub ha) b (hsub hb)

/-- A file is read as it is in the directory. -/
theorem read_eq_some (h : Keyed.Distinct Prod.fst d) :
    d.read name = some bytes ↔ (name, bytes) ∈ d := by
  rw [read, Option.map_eq_some_iff]
  constructor
  · rintro ⟨entry, hentry, rfl⟩
    obtain ⟨hmem, rfl⟩ := Keyed.mem_of_lookup hentry
    exact hmem
  · intro hmem
    exact ⟨(name, bytes), (Keyed.lookup_eq_some h).mpr ⟨hmem, rfl⟩, rfl⟩

theorem isFile_iff (h : Keyed.Distinct Prod.fst d) :
    d.isFile name = true ↔ ∃ bytes, (name, bytes) ∈ d := by
  rw [isFile, Option.isSome_iff_exists]
  simp only [read_eq_some h]

theorem read_eq_none (h : d.isFile name = false) : d.read name = none := by
  simpa [isFile] using h

end Directory

/-- Recovery accepts a file that starts as its format does, except for a transport stream of less
than three packets. -/
theorem validHeader_iff {format : RecordingFormat} {file : Bytes} (h : Starts format file) :
    validHeader (file.take (tsPacketBytes * 3)) = true ↔
      (format = .mpegTs → tsPacketBytes * 3 ≤ file.length) := by
  have hts : tsPacketBytes = 188 := rfl
  cases format with
  -- a pack of the program stream is all that recovery looks for
  | mpegPs =>
    refine iff_of_true (decide_eq_true (.inl ?_)) fun hformat => RecordingFormat.noConfusion hformat
    exact List.isPrefixOf_iff_prefix.mpr (List.prefix_take_iff.mpr ⟨h, by decide⟩)
  | mpegTs =>
    -- the three sync bytes of the transport stream are within the header
    have hsync : syncedAt (file.take (tsPacketBytes * 3)) 0 = true := by
      obtain ⟨h₀, h₁, h₂⟩ := of_decide_eq_true h
      refine decide_eq_true ⟨?_, ?_, ?_⟩
      · rw [List.getElem?_take_of_lt (by decide)]
        exact h₀
      · rw [List.getElem?_take_of_lt (by decide)]
        exact h₁
      · rw [List.getElem?_take_of_lt (by decide)]
        exact h₂
    constructor
    · intro hvalid _
      rcases of_decide_eq_true hvalid with hpack | ⟨hlength, -⟩
      · -- the file starts with a sync byte, and a pack with another one
        obtain ⟨rest, hrest⟩ := List.isPrefixOf_iff_prefix.mp hpack
        obtain ⟨h₀, -, -⟩ := of_decide_eq_true hsync
        rw [← hrest] at h₀
        cases h₀
      · rw [List.length_take] at hlength
        omega
    · intro hlength
      refine decide_eq_true (.inr ⟨?_, hsync⟩)
      rw [List.length_take]
      exact le_min le_rfl (hlength rfl)

/-- `media_path` finds the media file of the recording, whatever type the manifest has. -/
theorem mediaPath_of_mem {d : Directory} {m : RecordingManifest} {format : RecordingFormat}
    {bytes : Bytes} (hnames : Keyed.Distinct Prod.fst d) (hsingle : d.Single)
    (hmem : (SpoolFile.media m.recordingId format, bytes) ∈ d) :
    mediaPath d m = .media m.recordingId format := by
  have hfile : d.isFile (.media m.recordingId format) = true :=
    (Directory.isFile_iff hnames).mpr ⟨bytes, hmem⟩
  have hother : ∀ format', format' ≠ format →
      d.isFile (.media m.recordingId format') = false := by
    intro format' hne
    rw [← Bool.not_eq_true, Directory.isFile_iff hnames]
    rintro ⟨bytes', hmem'⟩
    have heq := hsingle _ hmem' _ hmem rfl rfl rfl
    injection heq with hname
    injection hname with _ hformat
    exact hne hformat
  unfold mediaPath
  -- the type of the manifest is tried first, and then the other one
  cases format <;> by_cases htype : m.mediaType = .mp2t <;> simp [htype, hfile, hother]

/-- A file that `media_path` leads to is a media file of the recording. -/
theorem mem_of_isFile_mediaPath {d : Directory} {m : RecordingManifest}
    (hnames : Keyed.Distinct Prod.fst d) (h : d.isFile (mediaPath d m) = true) :
    ∃ format bytes, mediaPath d m = .media m.recordingId format ∧
      (SpoolFile.media m.recordingId format, bytes) ∈ d := by
  obtain ⟨bytes, hmem⟩ := (Directory.isFile_iff hnames).mp h
  obtain ⟨howner, hmedia⟩ := Manager.owner_mediaPath d m
  -- a partial file is not a media file
  cases hpath : mediaPath d m with
  | partialOf id =>
    rw [hpath] at hmedia
    exact nomatch hmedia
  | media id format =>
    rw [hpath] at howner hmem
    obtain rfl : id = m.recordingId := howner
    exact ⟨format, bytes, rfl, hmem⟩

/-- The inspection of a file that can be read. -/
theorem inspectMedia_eq (sha256 : Sha256) (file : Bytes) :
    inspectMedia sha256 (some file) =
      if validHeader (file.take (tsPacketBytes * 3)) then .ok (some (file.length, sha256 file))
      else .error (.recording "recovered media has no MPEG-PS or MPEG-TS header") := by
  have hread : file.take (tsPacketBytes * 3) ++
      (chunks (64 * 1024) (file.drop (tsPacketBytes * 3))).flatten = file := by
    rw [flatten_chunks (by decide), List.take_append_drop]
  rw [inspectMedia, hread]

/-! ### Manifests that describe their files -/

/-- The manifest has the type, the size and the digest of the media file of its recording. -/
def Describes (sha256 : Sha256) (m : RecordingManifest) (d : Directory) : Prop :=
  ∀ format bytes, (SpoolFile.media m.recordingId format, bytes) ∈ d →
    m.mediaType = format.mediaType ∧ m.bytes = some bytes.length ∧ m.sha256 = some (sha256 bytes)

/-- Every `ready` manifest describes its file. -/
def Faithful (sha256 : Sha256) (state : State) (d : Directory) : Prop :=
  ∀ m ∈ state.manifests, m.status = .ready → Describes sha256 m d

/-- Fewer manifests and fewer files are still described. -/
theorem Faithful.of_subset {sha256 : Sha256} {state state' : State} {d d' : Directory}
    (h : Faithful sha256 state d) (hstate : state'.manifests ⊆ state.manifests) (hd : d' ⊆ d) :
    Faithful sha256 state' d' :=
  fun m hm hready format bytes hmem => h m (hstate hm) hready format bytes (hd hmem)

theorem recoveredType_media (id : Uuid) (format : RecordingFormat) :
    recoveredType (.media id format) = format.mediaType := by
  cases format <;> rfl

/-- What recovery does to a manifest whose recording has a media file. -/
theorem recoverManifest_of_mem {sha256 : Sha256} {d : Directory} {now : Timestamp}
    {m : RecordingManifest} {format : RecordingFormat} {bytes : Bytes}
    (hnames : Keyed.Distinct Prod.fst d) (hsingle : d.Single)
    (hmem : (SpoolFile.media m.recordingId format, bytes) ∈ d) :
    (m.isActive = true → validHeader (bytes.take (tsPacketBytes * 3)) = true →
      (recoverManifest sha256 d now m).status = .ready ∧
        (recoverManifest sha256 d now m).mediaType = format.mediaType ∧
        (recoverManifest sha256 d now m).bytes = some bytes.length ∧
        (recoverManifest sha256 d now m).sha256 = some (sha256 bytes)) ∧
    (m.isActive = true → validHeader (bytes.take (tsPacketBytes * 3)) = false →
      (recoverManifest sha256 d now m).status = .failed) ∧
    (m.isActive = false → recoverManifest sha256 d now m = m) := by
  have hpath := mediaPath_of_mem hnames hsingle hmem
  have hread : d.read (.media m.recordingId format) = some bytes :=
    (Directory.read_eq_some hnames).mpr hmem
  have hfile : d.isFile (.media m.recordingId format) = true :=
    (Directory.isFile_iff hnames).mpr ⟨bytes, hmem⟩
  refine ⟨?_, ?_, ?_⟩
  -- an active recording with a valid header is ready
  · intro hactive hvalid
    simp [recoverManifest, hpath, hread, inspectMedia_eq, hactive, hvalid, recoveredType_media]
  -- without a valid header it failed
  · intro hactive hinvalid
    simp [recoverManifest, hpath, hread, inspectMedia_eq, hactive, hinvalid, RecordingManifest.fail]
  -- what is not active is as it was, for its file is there
  · intro hinactive
    simp [recoverManifest, hpath, hinactive, hfile]

/-- A recovered manifest is `ready` only if there is a media file. -/
theorem exists_of_recovered_ready {sha256 : Sha256} {d : Directory} {now : Timestamp}
    {m : RecordingManifest} (hnames : Keyed.Distinct Prod.fst d)
    (h : (recoverManifest sha256 d now m).status = .ready) :
    ∃ format bytes, (SpoolFile.media m.recordingId format, bytes) ∈ d := by
  cases hfile : d.isFile (mediaPath d m) with
  -- the file is there, and so is its media
  | true =>
    obtain ⟨format, bytes, -, hmem⟩ := mem_of_isFile_mediaPath hnames hfile
    exact ⟨format, bytes, hmem⟩
  | false =>
    -- without a file an active manifest was interrupted, and a ready one has lost its media
    exfalso
    unfold recoverManifest at h
    dsimp only at h
    rw [Directory.read_eq_none hfile, hfile] at h
    dsimp only [inspectMedia] at h
    split_ifs at h with hactive hready
    · exact nomatch h
    · exact nomatch h
    · exact hready ⟨h, rfl⟩

/-- Recovery makes every `ready` manifest describe its file. -/
theorem faithful_recover {sha256 : Sha256} {d : Directory} {now : Timestamp} {state : State}
    (hnames : Keyed.Distinct Prod.fst d) (hsingle : d.Single) (h : Faithful sha256 state d) :
    Faithful sha256 (recover sha256 d now state).2 d := by
  intro m' hm' hready format bytes hmem
  obtain ⟨m, hm, rfl⟩ := List.mem_map.mp hm'
  rw [(Manager.recoverManifest_request d now m).1] at hmem
  obtain ⟨hvalid, hinvalid, hkept⟩ := @recoverManifest_of_mem sha256 d now m _ _ hnames hsingle hmem
  -- an active manifest is described by the inspection, the others as before
  cases hactive : m.isActive with
  | true =>
    cases hheader : validHeader (bytes.take (tsPacketBytes * 3)) with
    | true => exact (hvalid hactive hheader).2
    | false => exact nomatch hready.symm.trans (hinvalid hactive hheader)
  | false =>
    rw [hkept hactive] at hready ⊢
    exact h m hm hready format bytes hmem

/-! ### Whole runs -/

namespace Manager

variable {cfg : Config} {sha256 : Sha256} {s s' : Manager} {id : Uuid}

/-- Media start as their format does, and every `ready` manifest, in memory or in the journal,
describes the one media file of its recording, if it is there. -/
structure Described (cfg : Config) (sha256 : Sha256) (s : Manager) : Prop extends s.Filed cfg where
  single : s.directory.Single
  started : ∀ id format bytes, (SpoolFile.media id format, bytes) ∈ s.directory →
    Starts format bytes
  memory : Faithful sha256 s.state s.directory
  stored : Faithful sha256 (loadState s.journal) s.directory

/-- At the start there is nothing to describe. -/
theorem described_fresh : Described cfg sha256 {} where
  toFiled := filed_fresh
  single _ h := nomatch h
  started _ _ _ h := nomatch h
  memory _ h := nomatch h
  stored _ h := nomatch h

/-- A step that leaves the journal alone or writes the new state to it, and adds no media. -/
theorem Described.of_memory (h : s.Described cfg sha256) (h' : s'.Filed cfg)
    (hd : s'.directory ⊆ s.directory)
    (hjournal : s'.journal = s.journal ∨ s'.journal = some s'.state.journal)
    (hmemory : Faithful sha256 s'.state s'.directory) : s'.Described cfg sha256 := by
  refine { toFiled := h', single := h.single.of_subset hd, started := ?_, memory := hmemory,
           stored := ?_ }
  · exact fun id format bytes hmem => h.started id format bytes (hd hmem)
  · rcases loadState_cases h'.state hjournal with heq | heq <;> rw [heq]
    · exact h.stored.of_subset (List.Subset.refl _) hd
    · exact hmemory

/-- The recording of a busy job is not `ready` anywhere. -/
theorem not_ready_of_runs {state : State} {m : RecordingManifest} (hc : state.Consistent)
    (hrun : state.Runs m.recordingId) (hm : m ∈ state.manifests) : m.status ≠ .ready := by
  obtain ⟨m', hm', hactive⟩ := hrun
  obtain rfl := Option.some.inj (hm'.symm.trans (State.get_of_mem hc hm))
  intro hready
  rw [RecordingManifest.isActive, hready] at hactive
  cases hactive

/-- The files of a recording do not matter to the manifests of the others. -/
theorem faithful_of_others {state : State} {d d' : Directory}
    (hothers : d'.others id = d.others id) (h : Faithful sha256 state d)
    (hid : ∀ m ∈ state.manifests, m.recordingId = id → m.status ≠ .ready) :
    Faithful sha256 state d' := by
  intro m hm hready format bytes hmem
  have hne : m.recordingId ≠ id := fun heq => hid m hm heq hready
  have hin : (SpoolFile.media m.recordingId format, bytes) ∈ d'.others id :=
    Directory.mem_others.mpr ⟨hmem, hne⟩
  rw [hothers] at hin
  exact h m hm hready format bytes (Directory.mem_others.mp hin).1

/-- A file of another recording was there before. -/
theorem mem_of_others {d d' : Directory} {entry : SpoolFile × Bytes}
    (hothers : d'.others id = d.others id) (hentry : entry ∈ d') (howner : entry.1.owner ≠ id) :
    entry ∈ d := by
  have hin : entry ∈ d'.others id := Directory.mem_others.mpr ⟨hentry, howner⟩
  rw [hothers] at hin
  exact (Directory.mem_others.mp hin).1

/-- A job leaves at most one media file of its recording. -/
theorem single_job {e : Event} {p q : JobPhase} {f : RecordingManifest → RecordingManifest}
    (h' : s'.Filed cfg) (h : s.directory.Single) (hjob : JobStep cfg sha256 s e id p q f s')
    (hothers : s'.directory.others id = s.directory.others id) : s'.directory.Single := by
  obtain ⟨kind, -, hmoves, -⟩ := hjob.moves
  -- a job that is not busy touches no file
  cases hq : q.busy with
  | false => exact directory_of_moves hmoves hq ▸ h
  | true =>
    have hphase : s'.phase id = some q := by rw [hjob.phase_eq.2, Function.update_self]
    have hleft : Left cfg.maxBytes id (s'.directory.filesOf id) := (h'.files id q hphase).left hq
    intro a ha b hb hamedia hbmedia hab
    by_cases howner : a.1.owner = id
    · -- a busy job has at most one file
      exact hleft.subsingleton (Directory.mem_filesOf.mpr ⟨ha, howner⟩)
        (Directory.mem_filesOf.mpr ⟨hb, hab.symm.trans howner⟩)
    · exact h a (mem_of_others hothers ha howner) b
        (mem_of_others hothers hb (hab ▸ howner)) hamedia
        hbmedia hab

/-- A busy job's media start as their format does. -/
theorem Left.starts {max : ℕ} {files : Directory} {format : RecordingFormat} {bytes : Bytes}
    (h : Left max id files) (hmem : (SpoolFile.media id format, bytes) ∈ files) :
    Starts format bytes := by
  rcases h with rfl | ⟨_, rfl, -⟩ | ⟨x, hx, rfl⟩
  · exact nomatch hmem
  · exact nomatch List.mem_singleton.mp hmem
  · injection List.mem_singleton.mp hmem with hname hbytes
    injection hname with _ hformat
    rw [hformat, hbytes]
    exact hx.starts

/-- The media of a job starts as its format does. -/
theorem started_job {e : Event} {p q : JobPhase} {f : RecordingManifest → RecordingManifest}
    (h' : s'.Filed cfg) (h : s.Described cfg sha256) (hjob : JobStep cfg sha256 s e id p q f s')
    (hothers : s'.directory.others id = s.directory.others id) {id' : Uuid}
    {format : RecordingFormat} {bytes : Bytes}
    (hmem : (SpoolFile.media id' format, bytes) ∈ s'.directory) : Starts format bytes := by
  obtain ⟨kind, -, hmoves, -⟩ := hjob.moves
  -- the recording of the job, or another one
  by_cases heq : id' = id
  · subst heq
    cases hq : q.busy with
    | true =>
      have hphase : s'.phase id' = some q := by rw [hjob.phase_eq.2, Function.update_self]
      exact Left.starts ((h'.files id' q hphase).left hq) (Directory.mem_filesOf.mpr ⟨hmem, rfl⟩)
    | false =>
      rw [directory_of_moves hmoves hq] at hmem
      exact h.started id' format bytes hmem
  · exact h.started id' format bytes (mem_of_others hothers hmem heq)

/-- A step after which a manifest is `ready` is the one that publishes it, or has left it alone. -/
theorem ready_cases_of_moves {kind : JobKind} {found : Option RecordingManifest} {d d' : Directory}
    {e : Event} {p q : JobPhase} {f : RecordingManifest → RecordingManifest}
    (hmoves : Moves cfg sha256 id kind found d e p q f d') {m : RecordingManifest}
    (h : (f m).status = .ready) :
    (∃ x now millis, p = .written x ∧ d' = d ∧ f m = m.publish sha256 x now millis) ∨ f m = m := by
  cases hmoves with
  | @complete x now millis => exact .inl ⟨x, now, millis, rfl, rfl, rfl⟩
  | begin | beginFailed | recordFailed => exact nomatch h
  | _ => exact .inr rfl

/-- The step of a job keeps the manifests and the files in agreement. -/
theorem described_job {e : Event} {p q : JobPhase} {f : RecordingManifest → RecordingManifest}
    (hcfg : cfg.Bounded) (h : s.Described cfg sha256) (h' : s'.Filed cfg)
    (hjob : JobStep cfg sha256 s e id p q f s') : s'.Described cfg sha256 := by
  obtain ⟨kind, hwas, hmoves, hjobs⟩ := hjob.moves
  obtain ⟨hp, -⟩ := hjob.phase_eq
  obtain ⟨hothers, -⟩ := files_of_moves hcfg hmoves (h.files id p hp)
  have hsingle := single_job h' h.single hjob hothers
  -- neither memory nor journal has a busy recording as `ready`
  have hfaithful : ∀ {state : State}, state.Consistent → (p.busy = true → state.Runs id) →
      Faithful sha256 state s.directory → Faithful sha256 state s'.directory := by
    intro state hc hruns hold
    cases hbusy : p.busy with
    | true =>
      refine faithful_of_others hothers hold fun m hm heq => ?_
      exact not_ready_of_runs hc (heq ▸ hruns hbusy) hm
    | false =>
      obtain ⟨rfl, rfl⟩ := completed_of_moves hmoves hbusy
      have hq : q.busy = false := by
        by_contra hq
        exact nomatch (busy_of_moves hmoves (by simpa using hq)).1
      rw [directory_of_moves hmoves hq]
      exact hold
  -- the manifest of the job, if it is ready now, was published by this step
  have hmemory : Faithful sha256 s'.state s'.directory := by
    have hold := hfaithful h.state.consistent (fun hbusy => (h.busy id p hp hbusy).1) h.memory
    rw [hjob.state]
    intro m' hm' hready
    obtain ⟨m, hm, rfl⟩ := Keyed.mem_modify.mp hm'
    split_ifs at hready ⊢ with heq
    · rcases ready_cases_of_moves hmoves hready with ⟨x, now, millis, rfl, hd, hpublish⟩ | hsame
      · -- `complete` records what was written
        obtain ⟨hfiles, hx⟩ := h.files id _ hp
        rw [hpublish, hd]
        intro format bytes hmem
        have hin := Directory.mem_filesOf.mpr ⟨hmem, heq⟩
        rw [hfiles] at hin
        injection List.mem_singleton.mp hin with hname hbytes
        injection hname with _ hformat
        rw [hformat, hbytes, ← hx.bytes]
        exact ⟨rfl, rfl, rfl⟩
      · rw [hsame] at hready ⊢
        exact hold m hm hready
    · exact hold m hm hready
  refine { toFiled := h', single := hsingle, started := ?_, memory := hmemory, stored := ?_ }
  · exact fun _ _ _ hmem => started_job h' h hjob hothers hmem
  -- the journal has what memory has, or what it had
  · rcases loadState_cases h'.state hjob.journal with heq | heq <;> rw [heq]
    · exact hfaithful h.journal.consistent (fun hbusy => (h.busy id p hp hbusy).2) h.stored
    · exact hmemory

/-- Every step keeps the manifests and the files in agreement. -/
theorem described_step {e : Event} (hcfg : cfg.Bounded) (h : s.Described cfg sha256)
    (hstep : s.step cfg sha256 e = some s') : s'.Described cfg sha256 := by
  have h' := filed_step hcfg h.toFiled hstep
  cases step_cases hstep with
  | idle hidle =>
    refine h.of_memory h' (hidle.directory ▸ List.Subset.refl _) (.inl hidle.journal) ?_
    rw [hidle.state, hidle.directory]
    exact h.memory
  | admitted _ hadm =>
    refine h.of_memory h' (hadm.directory ▸ List.Subset.refl _) hadm.journal ?_
    rw [hadm.state, hadm.directory]
    -- the new manifest is pending
    intro m hm hready
    rcases Keyed.mem_insert.mp hm with ⟨hm, -⟩ | rfl
    · exact h.memory m hm hready
    · exact nomatch hadm.pending.symm.trans hready
  | spawn _ =>
    exact { toFiled := h', single := h.single, started := h.started, memory := h.memory,
            stored := h.stored }
  | acknowledge _ hack =>
    cases hack with
    | refused => exact h
    -- the media of a recording that is gone was removed with it
    | @removed m =>
      have hsub := (withoutMedia_sublist s.directory m).subset
      exact h.of_memory h' hsub (.inl rfl) (h.memory.of_subset (List.Subset.refl _) hsub)
    | @released m _ _ _ hjournal _ =>
      have hsub := (withoutMedia_sublist s.directory m).subset
      refine h.of_memory h' hsub hjournal (h.memory.of_subset ?_ hsub)
      exact fun m' hm' => (Keyed.mem_remove.mp hm').1
  | crash =>
    exact { toFiled := h', single := h.single, started := h.started,
            -- after a crash there is nothing in memory
            memory := fun _ hm => (nomatch hm), stored := h.stored }
  | @restart now _ _ hres =>
    have hsub : s'.directory ⊆ s.directory := hres.directory ▸ List.filter_subset_self _
    -- recovery works on the journal and the directory as they were left
    have hrecovered := (@faithful_recover sha256 _ now _ h.names h.single h.stored).of_subset
      (List.Subset.refl _) hsub
    refine { toFiled := h', single := h.single.of_subset hsub, started := ?_, memory := ?_,
             stored := ?_ }
    · exact fun id format bytes hmem => h.started id format bytes (hsub hmem)
    · rcases hres.state with ⟨-, heq⟩ | ⟨-, heq⟩ <;> rw [heq]
      · exact hrecovered
      · exact fun _ hm => nomatch hm
    · rcases hres.journal with heq | heq <;> rw [heq]
      · exact h.stored.of_subset (List.Subset.refl _) hsub
      · rw [State.loadState_journal (sound_recover h.journal s.directory now).consistent]
        exact hrecovered
  | job hjob => exact described_job hcfg h h' hjob

/-- **In every run, what a `ready` manifest says is true of its file.** -/
theorem described_run {events : List Event} (hcfg : cfg.Bounded) (h : s.Described cfg sha256)
    (hrun : EventSystem.run (step cfg sha256) s events = some s') : s'.Described cfg sha256 :=
  EventSystem.run_keeps (Described cfg sha256) (fun _ _ _ => described_step hcfg) h hrun

/-! ### A crash and a restart -/

/-- The state and the directory after a crash and a restart. -/
theorem restarted_eq {t : Manager} {now : Timestamp}
    (ht : EventSystem.run (step cfg sha256) s [.crash, .restart now .ok] = some t) :
    t.state = (recover sha256 s.directory now (loadState s.journal)).2 ∧
      t.directory = removePartialFiles s.directory := by
  obtain rfl := Option.some.inj ht
  exact ⟨rfl, rfl⟩

theorem get_recover {state : State} {d : Directory} {now : Timestamp} :
    (recover sha256 d now state).2.get id = (state.get id).map (recoverManifest sha256 d now) :=
  Keyed.lookup_map fun m => (recoverManifest_request d now m).1

/-- A `ready` manifest whose file is gone fails and forgets the file. -/
theorem recoverManifest_missing {d : Directory} {m : RecordingManifest} {now : Timestamp}
    (hready : m.status = .ready) (hfile : d.isFile (mediaPath d m) = false) :
    (recoverManifest sha256 d now m).status = .failed ∧
      (recoverManifest sha256 d now m).bytes = none ∧
      (recoverManifest sha256 d now m).sha256 = none := by
  have hinactive : m.isActive = false := by
    rw [RecordingManifest.isActive, hready]
    rfl
  simp [recoverManifest, hinactive, hready, hfile, RecordingManifest.fail]

/-- The file that the job has renamed. -/
def renamed : JobPhase → Option Written
  | .publishing x | .written x | .retracting x _ => some x
  | _ => none

/-- After the rename the recording has its media file, and no other. -/
theorem Files.of_renamed {max : ℕ} {p : JobPhase} {x : Written} {files : Directory}
    (h : Files max id p files) (hx : renamed p = some x) :
    files = [(.media id x.format, x.digest)] ∧ x.Holds max := by
  cases p with
  | publishing | written | retracting =>
    obtain rfl := Option.some.inj hx
    exact h
  | _ => exact nomatch hx

/-- **Crash recovery publishes exactly what was written.** After a crash at any moment of any run,
and a restart: nothing is pending or recording, no partial file is left, and a `ready` manifest has
a media file, which `media_path` finds, and its size, digest and type. These are the values of the
writer, if a job had renamed its file, and those that `complete` had recorded, if the manifest was
`ready` in memory. A manifest that was `ready` in the journal and has no file fails. -/
theorem recovery_publishes_written {events : List Event} {t : Manager} {now : Timestamp}
    (hcfg : cfg.Bounded) (hs : EventSystem.run (step cfg sha256) {} events = some s)
    (ht : EventSystem.run (step cfg sha256) s [.crash, .restart now .ok] = some t) :
    (∀ m ∈ t.state.manifests, m.status ≠ .pending ∧ m.status ≠ .recording) ∧
    (∀ id bytes, (SpoolFile.partialOf id, bytes) ∉ t.directory) ∧
    (∀ m ∈ t.state.manifests, m.status = .ready → ∃ format bytes,
      mediaPath t.directory m = .media m.recordingId format ∧
      t.directory.read (mediaPath t.directory m) = some bytes ∧
      m.bytes = some bytes.length ∧ m.sha256 = some (sha256 bytes) ∧
      m.mediaType = format.mediaType) ∧
    (∀ id p x, s.phase id = some p → renamed p = some x → ∃ m, t.state.get id = some m ∧
      (validHeader (x.digest.take (tsPacketBytes * 3)) = true → m.status = .ready) ∧
      (m.status = .ready → m.bytes = some x.bytes ∧ m.sha256 = some (sha256 x.digest) ∧
        m.mediaType = x.format.mediaType)) ∧
    (∀ m₀ ∈ s.state.manifests, m₀.status = .ready → ∀ m, t.state.get m₀.recordingId = some m →
      m.status = .ready →
        m.bytes = m₀.bytes ∧ m.sha256 = m₀.sha256 ∧ m.mediaType = m₀.mediaType) ∧
    (∀ m ∈ (loadState s.journal).manifests, m.status = .ready →
      s.directory.isFile (mediaPath s.directory m) = false → ∃ m',
        t.state.get m.recordingId = some m' ∧ m'.status = .failed ∧ m'.bytes = none ∧
          m'.sha256 = none) := by
  have hsd : s.Described cfg sha256 := described_run hcfg described_fresh hs
  have htd : t.Described cfg sha256 := described_run hcfg hsd ht
  obtain ⟨hstate, hdirectory⟩ := restarted_eq ht
  -- media survive the restart
  have hkept : ∀ {id format bytes}, (SpoolFile.media id format, bytes) ∈ s.directory →
      (SpoolFile.media id format, bytes) ∈ t.directory := by
    intro id format bytes hmem
    rw [hdirectory]
    exact List.mem_filter.mpr ⟨hmem, rfl⟩
  -- a recording that is ready after the restart has its file
  have hfile : ∀ m ∈ t.state.manifests, m.status = .ready →
      ∃ format bytes, (SpoolFile.media m.recordingId format, bytes) ∈ t.directory := by
    intro m hm hready
    rw [hstate] at hm
    obtain ⟨m₀, -, rfl⟩ := List.mem_map.mp hm
    obtain ⟨format, bytes, hmem⟩ := exists_of_recovered_ready hsd.names hready
    rw [(recoverManifest_request s.directory now m₀).1]
    exact ⟨format, bytes, hkept hmem⟩
  refine ⟨?_, ?_, ?_, ?_, ?_, ?_⟩
  -- no recording is active
  · intro m hm
    rw [hstate] at hm
    obtain ⟨m₀, -, rfl⟩ := List.mem_map.mp hm
    have hinactive := isActive_recoverManifest sha256 s.directory now m₀
    rw [RecordingManifest.isActive, decide_eq_false_iff_not, not_or] at hinactive
    exact hinactive
  -- the partial files are removed
  · intro id bytes hmem
    rw [hdirectory] at hmem
    cases (List.mem_filter.mp hmem).2
  -- the manifest describes the file that `media_path` leads to
  · intro m hm hready
    obtain ⟨format, bytes, hmem⟩ := hfile m hm hready
    obtain ⟨htype, hbytes, hdigest⟩ := htd.memory m hm hready format bytes hmem
    have hpath := mediaPath_of_mem htd.names htd.single hmem
    refine ⟨format, bytes, hpath, ?_, hbytes, hdigest, htype⟩
    rw [hpath]
    exact (Directory.read_eq_some htd.names).mpr hmem
  · -- the journal has the recording of a busy job as active
    intro id p x hp hx
    have hbusy : p.busy = true := by
      cases p with
      | completed | finished => cases hx
      | _ => rfl
    obtain ⟨m₀, hm₀, hactive⟩ := (hsd.busy id p hp hbusy).2
    obtain ⟨hfiles, hholds⟩ := (hsd.files id p hp).of_renamed hx
    have hid : m₀.recordingId = id := (State.mem_of_get hm₀).2
    have hmem : (SpoolFile.media m₀.recordingId x.format, x.digest) ∈ s.directory := by
      rw [hid]
      exact (Directory.mem_filesOf.mp (hfiles ▸ List.mem_singleton_self _)).1
    -- recovery finds the file that was renamed
    obtain ⟨hvalid, -, -⟩ := @recoverManifest_of_mem sha256 _ now m₀ _ _ hsd.names hsd.single hmem
    have hget : t.state.get id = some (recoverManifest sha256 s.directory now m₀) := by
      rw [hstate, get_recover, hm₀, Option.map_some]
    refine ⟨_, hget, fun hheader => (hvalid hactive hheader).1, fun hready => ?_⟩
    have hmem' := hkept hmem
    rw [← (recoverManifest_request s.directory now m₀).1] at hmem'
    obtain ⟨htype, hbytes, hdigest⟩ :=
      htd.memory _ (State.mem_of_get hget).1 hready x.format x.digest hmem'
    exact ⟨hholds.bytes ▸ hbytes, hdigest, htype⟩
  · -- both describe the same file
    intro m₀ hm₀ hready₀ m hget hready
    obtain ⟨hm, hid⟩ := State.mem_of_get hget
    obtain ⟨format, bytes, hmem⟩ := hfile m hm hready
    obtain ⟨htype, hbytes, hdigest⟩ := htd.memory m hm hready format bytes hmem
    have hmem₀ : (SpoolFile.media m₀.recordingId format, bytes) ∈ s.directory := by
      rw [hdirectory] at hmem
      exact hid ▸ (List.mem_filter.mp hmem).1
    obtain ⟨htype₀, hbytes₀, hdigest₀⟩ := hsd.memory m₀ hm₀ hready₀ format bytes hmem₀
    exact ⟨hbytes.trans hbytes₀.symm, hdigest.trans hdigest₀.symm, htype.trans htype₀.symm⟩
  -- a recording whose media is missing failed
  · intro m hm hready hmissing
    refine ⟨recoverManifest sha256 s.directory now m, ?_, recoverManifest_missing hready hmissing⟩
    rw [hstate, get_recover, State.get_of_mem hsd.journal.consistent hm, Option.map_some]

/-- A program stream is renamed, and the process crashes before anything else happens. -/
theorem recovery_publishes_written_sample :
    ∃ s t, EventSystem.run (step sampleConfig sampleSha256) {} sampleRenamed = some s ∧
      EventSystem.run (step sampleConfig sampleSha256) s [.crash, .restart 9 .ok] = some t ∧
      ∃ m, t.state.get 1 = some m ∧ m.status = .ready ∧ m.bytes = some 8 := by
  -- the run ends between the rename and the publication
  obtain ⟨s, hs, hphase⟩ : ∃ s ∈ EventSystem.run (step sampleConfig sampleSha256) {} sampleRenamed,
      s.phase 1 = some (.publishing
        { startedAt := 2, bytes := 8, digest := [0x00, 0x00, 0x01, 0xba, 1, 2, 3, 4],
          format := .mpegPs }) := by decide +kernel
  have hcfg : sampleConfig.Bounded := ⟨by decide, by decide⟩
  have ht : EventSystem.run (step sampleConfig sampleSha256) s [.crash, .restart 9 .ok] =
      some _ := rfl
  obtain ⟨-, -, -, hwritten, -, -⟩ := recovery_publishes_written hcfg hs ht
  obtain ⟨m, hget, hready, hvalues⟩ := hwritten 1 _ _ hphase rfl
  exact ⟨s, _, hs, ht, m, hget, hready (by decide), (hvalues (hready (by decide))).1⟩

end Manager

end Recordings

end EzvizBridge
