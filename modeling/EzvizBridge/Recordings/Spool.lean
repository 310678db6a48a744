import EzvizBridge.Recordings.Lifecycle

/-!
# The files of a recording

Which files a recording has in the spool follows from where its job stands (`JobPhase.Files`):
nothing before the partial file is created, the partial file while it is written, one media file
after the rename. Their contents are what the digest was fed, start with the header of their format
and stay within the byte limit. What a job does to its own files it does to no others
(`Directory.others`).

`Filed` is the invariant of whole runs. It says nothing about the manifests: that a `ready` manifest
describes its file is in `Recordings.Recovery`.
-/

namespace EzvizBridge

namespace Recordings

/-- Byte limit and quota leave room in a `u64`; `config.rs` accepts at most 2 GiB and 1 TiB. -/
structure Config.Bounded (cfg : Config) : Prop where
  maxBytes : cfg.maxBytes < u64Max
  quotaBytes : cfg.quotaBytes < u64Max

/-! ### One recording's part of the directory -/

namespace Directory

variable {d : Directory} {id : Uuid} {name old new : SpoolFile} {bytes : Bytes}

/-- The files of all other recordings. -/
def others (self : Directory) (id : Uuid) : Directory :=
  self.filter fun entry => entry.1.owner ≠ id

theorem mem_filesOf {entry : SpoolFile × Bytes} :
    entry ∈ d.filesOf id ↔ entry ∈ d ∧ entry.1.owner = id := by
  simp [filesOf]

theorem mem_others {entry : SpoolFile × Bytes} :
    entry ∈ d.others id ↔ entry ∈ d ∧ entry.1.owner ≠ id := by
  simp [others]

/-- The files of another recording are among the others. -/
theorem filesOf_others {id' : Uuid} (h : id' ≠ id) : (d.others id).filesOf id' = d.filesOf id' := by
  rw [filesOf, others, List.filter_filter, filesOf]
  refine List.filter_congr fun entry _ => ?_
  by_cases howner : entry.1.owner = id'
  · simp [howner, h]
  · simp [howner]

/-- Where the other files stay, so do those of another recording. -/
theorem filesOf_congr {d' : Directory} {id' : Uuid} (h : d'.others id = d.others id)
    (hne : id' ≠ id) :
    d'.filesOf id' = d.filesOf id' := by
  rw [← filesOf_others hne, h, filesOf_others hne]

/-- Removing a file of the recording leaves the others. -/
theorem others_removeFile (h : name.owner = id) : (d.removeFile name).others id = d.others id := by
  rw [others, removeFile, Keyed.remove, List.filter_filter, others]
  refine List.filter_congr fun entry _ => ?_
  -- a file of another recording has another name
  by_cases howner : entry.1.owner = id
  · simp [howner]
  · have hne : entry.1 ≠ name := fun heq => howner (heq ▸ h)
    simp [howner, hne]

theorem others_write (h : name.owner = id) : (d.write name bytes).others id = d.others id := by
  rw [write, Keyed.insert, others, List.filter_append]
  change (d.removeFile name).others id ++ _ = _
  simp [others_removeFile h, h]

/-- Renaming a file of the recording leaves the others. -/
theorem others_rename (hold : old.owner = id) (hnew : new.owner = id) :
    (d.rename old new).others id = d.others id := by
  rw [rename]
  split
  · rfl
  · rw [others_write hnew, others_removeFile hold]

theorem filesOf_removeFile : (d.removeFile name).filesOf id = (d.filesOf id).removeFile name := by
  rw [filesOf, removeFile, Keyed.remove, List.filter_filter, filesOf, removeFile, Keyed.remove,
    List.filter_filter]
  exact List.filter_congr fun entry _ => Bool.and_comm _ _

theorem filesOf_write (h : name.owner = id) :
    (d.write name bytes).filesOf id = (d.filesOf id).write name bytes := by
  rw [write, Keyed.insert, filesOf, List.filter_append, write, Keyed.insert]
  change (d.removeFile name).filesOf id ++ _ = (d.filesOf id).removeFile name ++ _
  simp [filesOf_removeFile, h]

/-- A file of the recording is read among its files. -/
theorem read_filesOf (h : name.owner = id) : (d.filesOf id).read name = d.read name := by
  rw [read, read, Keyed.lookup, Keyed.lookup, filesOf, List.find?_filter]
  congr 2
  funext entry
  by_cases hname : entry.1 = name
  · simp [hname, h]
  · simp [hname]

/-- The files of the recording after the rename. -/
theorem filesOf_rename (hold : old.owner = id) (hnew : new.owner = id) :
    (d.rename old new).filesOf id = (d.filesOf id).rename old new := by
  rw [rename, rename, read_filesOf hold]
  split
  · rfl
  · rw [filesOf_write hnew, filesOf_removeFile]

/-- A rename replaces what had the new name. -/
theorem distinct_rename (h : Keyed.Distinct Prod.fst d) :
    Keyed.Distinct Prod.fst (d.rename old new) := by
  rw [rename]
  split
  · exact h
  · exact Keyed.distinct_insert (Keyed.distinct_remove h)

/-! A directory of at most one file. -/

theorem write_singleton {bytes' : Bytes} : write [(name, bytes')] name bytes = [(name, bytes)] := by
  simp [write, Keyed.insert, Keyed.remove]

theorem rename_singleton : rename [(old, bytes)] old new = [(new, bytes)] := by
  simp [rename, read, Keyed.lookup, removeFile, Keyed.remove, write, Keyed.insert]

theorem removeFile_singleton : removeFile [(name, bytes)] name = [] := by
  simp [removeFile, Keyed.remove]

theorem removeFile_singleton_of_ne {name' : SpoolFile} (h : name ≠ name') :
    removeFile [(name, bytes)] name' = [(name, bytes)] := by
  simp [removeFile, Keyed.remove, h]

end Directory

/-! ### The contents of a file -/

/-- The file starts as a file of its format does. -/
def Starts : RecordingFormat → Bytes → Prop
  | .mpegPs, file => packStart <+: file
  | .mpegTs, file => syncedAt file 0 = true

/-- More bytes at the end do not change the start. -/
theorem Starts.append {format : RecordingFormat} {file : Bytes} (h : Starts format file)
    (more : Bytes) : Starts format (file ++ more) := by
  cases format with
  | mpegPs => exact h.trans (List.prefix_append _ _)
  | mpegTs =>
    have hget : ∀ {i : ℕ} {b : UInt8}, file[i]? = some b → (file ++ more)[i]? = some b := by
      intro i b hi
      obtain ⟨hlt, -⟩ := List.getElem?_eq_some_iff.mp hi
      rw [List.getElem?_append_left hlt, hi]
    obtain ⟨h₀, h₁, h₂⟩ := of_decide_eq_true h
    exact decide_eq_true ⟨hget h₀, hget h₁, hget h₂⟩

/-- The writer starts the file where the media starts. -/
theorem starts_of_mediaAlignment {data : Bytes} {offset : ℕ} {format : RecordingFormat}
    (h : mediaAlignment data = some (offset, format)) : Starts format (data.drop offset) := by
  rw [mediaAlignment] at h
  -- a pack of the program stream, or three sync bytes
  split at h
  · rename_i hfind
    obtain ⟨rfl, rfl⟩ := Prod.mk.inj (Option.some.inj h)
    have hprefix := List.find?_some hfind
    exact List.isPrefixOf_iff_prefix.mp hprefix
  · obtain ⟨offset', hfind, heq⟩ := Option.map_eq_some_iff.mp h
    obtain ⟨rfl, rfl⟩ := Prod.mk.inj heq
    have hsynced := List.find?_some hfind
    obtain ⟨h₀, h₁, h₂⟩ := of_decide_eq_true hsynced
    refine decide_eq_true ⟨?_, ?_, ?_⟩
    · rw [List.getElem?_drop, Nat.add_zero, h₀]
    · rw [List.getElem?_drop, Nat.zero_add, h₁]
    · rw [List.getElem?_drop, Nat.zero_add, h₂]

/-- The writer has written what it has counted and hashed. -/
structure Writer.Holds (max : ℕ) (w : Writer) (file : Bytes) : Prop where
  digest : w.digest = file
  written : w.written = file.length
  bound : file.length ≤ max
  before : w.startedAt = none → file = []
  after : ∀ t, w.startedAt = some t → ∃ format, w.format = some format ∧ Starts format file

/-- The file that was written is what was counted and hashed. -/
structure Written.Holds (max : ℕ) (x : Written) : Prop where
  bytes : x.bytes = x.digest.length
  bound : x.digest.length ≤ max
  starts : Starts x.format x.digest

/-- The writer that finishes has written the file. -/
theorem Writer.Holds.finish {max : ℕ} {w : Writer} {file : Bytes} {x : Written}
    (h : w.Holds max file) (hx : w.finish = .ok x) : x.digest = file ∧ x.Holds max := by
  unfold Writer.finish at hx
  -- nothing was written, or its format was never known
  split at hx
  · exact nomatch hx
  · exact nomatch hx
  · rename_i t format hstarted hformat
    obtain rfl := Except.ok.inj hx
    obtain ⟨format', hformat', hstarts⟩ := h.after t hstarted
    obtain rfl := Option.some.inj (hformat.symm.trans hformat')
    refine ⟨h.digest, ?_, ?_, ?_⟩
    · exact h.written.trans (congrArg List.length h.digest.symm)
    · exact h.digest.symm ▸ h.bound
    · exact h.digest.symm ▸ hstarts

/-- `align` passes a chunk on once the file has started; the first one starts it. -/
theorem Writer.Holds.align {max : ℕ} {w w' : Writer} {file source : Bytes} {now : Timestamp}
    {chunk : Option Bytes} (h : w.Holds max file) (halign : w.align source now = .ok (chunk, w')) :
    match chunk with
    | none => w'.Holds max file
    | some chunk => w'.digest = file ∧ w'.written = file.length ∧
        ∃ t format, w'.startedAt = some t ∧ w'.format = some format ∧
          Starts format (file ++ chunk) := by
  unfold Writer.align at halign
  -- the file has started
  split_ifs at halign with hstarted
  · obtain ⟨rfl, rfl⟩ := Prod.mk.inj (Except.ok.inj halign)
    obtain ⟨t, ht⟩ := Option.isSome_iff_exists.mp hstarted
    obtain ⟨format, hformat, hstarts⟩ := h.after t ht
    exact ⟨h.digest, h.written, t, format, ht, hformat, hstarts.append source⟩
  · dsimp only at halign
    split at halign
    · split_ifs at halign
      obtain ⟨rfl, rfl⟩ := Prod.mk.inj (Except.ok.inj halign)
      exact ⟨h.digest, h.written, h.bound, h.before, h.after⟩
    · rename_i marker detected hmarker
      obtain ⟨rfl, rfl⟩ := Prod.mk.inj (Except.ok.inj halign)
      -- nothing is written before the first aligned byte
      obtain rfl := h.before (by simpa using hstarted)
      exact ⟨h.digest, h.written, now, detected, rfl, rfl, starts_of_mediaAlignment hmarker⟩

namespace Manager

variable {cfg : Config} {sha256 : Sha256} {s s' : Manager} {id id' : Uuid}

/-- What a received chunk does: the file stays within its limit, and it is what the writer has
counted and hashed. -/
theorem receive_cases {w : Writer} {file source : Bytes} {now : Timestamp} {stop : Bool}
    {fault : Option (ℕ × String)} (hcfg : cfg.Bounded) (h : w.Holds cfg.maxBytes file) :
    (∃ error, (receive cfg file w source now stop fault).2 = .discarding error ∧
      (receive cfg file w source now stop fault).1.length ≤ cfg.maxBytes) ∨
    (∃ w', (receive cfg file w source now stop fault).2 = .writing w' ∧
      w'.Holds cfg.maxBytes (receive cfg file w source now stop fault).1) ∨
    (∃ x, (receive cfg file w source now stop fault).2 = .flushing x ∧
      x.digest = (receive cfg file w source now stop fault).1 ∧ x.Holds cfg.maxBytes) := by
  unfold receive
  -- the chunk is refused, or held back, or written
  split
  · exact .inl ⟨_, rfl, h.bound⟩
  · rename_i w' halign
    exact .inr (.inl ⟨w', rfl, h.align halign⟩)
  · rename_i chunk w₁ halign
    obtain ⟨hdigest, hwritten, t, format, hstarted, hformat, hstarts⟩ := h.align halign
    split
    · exact .inl ⟨_, rfl, h.bound⟩
    all_goals
      rename_i hreserve
      unfold Writer.reserve at hreserve
      dsimp only at hreserve
      split_ifs at hreserve with hmax
      -- the sum is below the limit, so it was not cut off
      have hlength : (file ++ chunk).length ≤ cfg.maxBytes ∧
          saturatingAdd w₁.written chunk.length = (file ++ chunk).length := by
        have hbound := hcfg.maxBytes
        rw [saturatingAdd, hwritten] at hmax ⊢
        rw [List.length_append]
        omega
    · -- a part of the chunk was written
      refine .inl ⟨_, rfl, ?_⟩
      rw [List.length_append] at hlength ⊢
      have := List.length_take_le' ‹ℕ› chunk
      omega
    · obtain rfl := Except.ok.inj hreserve
      have hholds : Writer.Holds cfg.maxBytes { w₁ with
          digest := w₁.digest ++ chunk
          written := saturatingAdd w₁.written chunk.length } (file ++ chunk) := by
        refine ⟨by rw [hdigest], hlength.2, hlength.1, ?_, ?_⟩
        · exact fun hnone => nomatch hstarted.symm.trans hnone
        · exact fun _ _ => ⟨format, hformat, hstarts⟩
      dsimp only
      split_ifs
      · split
        · exact .inl ⟨_, rfl, hlength.1⟩
        · rename_i x hx
          exact .inr (.inr ⟨x, rfl, hholds.finish hx⟩)
      · exact .inr (.inl ⟨_, rfl, hholds⟩)

/-! ### The files of each phase -/

/-- What a job that gave up may have left behind: nothing, its partial file, or the file that it had
renamed already. -/
def Left (max : ℕ) (id : Uuid) (files : Directory) : Prop :=
  files = [] ∨ (∃ bytes : Bytes, files = [(.partialOf id, bytes)] ∧ bytes.length ≤ max) ∨
    ∃ x : Written, x.Holds max ∧ files = [(.media id x.format, x.digest)]

/-- The files of a recording whose job stands here. -/
def Files (max : ℕ) (id : Uuid) : JobPhase → Directory → Prop
  | .queued, files | .opening, files => files = []
  | .writing w, files => ∃ bytes, files = [(.partialOf id, bytes)] ∧ w.Holds max bytes
  | .flushing x, files => files = [(.partialOf id, x.digest)] ∧ x.Holds max
  | .publishing x, files | .written x, files | .retracting x _, files =>
    files = [(.media id x.format, x.digest)] ∧ x.Holds max
  | .discarding _, files | .failing _, files => Left max id files
  | .completed, _ | .finished, _ => True

/-- A busy job has at most one file, within the limit. -/
theorem Files.left {max : ℕ} {p : JobPhase} {files : Directory} (h : Files max id p files)
    (hp : p.busy = true) : Left max id files := by
  cases p with
  | queued | opening => exact .inl h
  | writing w =>
    obtain ⟨bytes, hfiles, hw⟩ := h
    exact .inr (.inl ⟨bytes, hfiles, hw.bound⟩)
  | flushing x => exact .inr (.inl ⟨x.digest, h.1, h.2.bound⟩)
  | publishing x | written x | retracting x => exact .inr (.inr ⟨x, h.2, h.1⟩)
  | discarding | failing => exact h
  | completed | finished => exact nomatch hp

/-- Removing the partial file leaves the media file. -/
theorem Left.removePartial {max : ℕ} {files : Directory} (h : Left max id files) :
    Left max id (files.removeFile (.partialOf id)) := by
  rcases h with rfl | ⟨bytes, rfl, -⟩ | ⟨x, hx, rfl⟩
  · exact .inl rfl
  · exact .inl Directory.removeFile_singleton
  · refine .inr (.inr ⟨x, hx, Directory.removeFile_singleton_of_ne ?_⟩)
    exact fun heq => nomatch heq

/-- A step of a job: its files are those of its new phase, and the other files stay. -/
theorem files_of_moves {kind : JobKind} {found : Option RecordingManifest} {d d' : Directory}
    {e : Event} {p q : JobPhase} {f : RecordingManifest → RecordingManifest} (hcfg : cfg.Bounded)
    (hmoves : Moves cfg sha256 id kind found d e p q f d')
    (h : Files cfg.maxBytes id p (d.filesOf id)) :
    d'.others id = d.others id ∧ Files cfg.maxBytes id q (d'.filesOf id) := by
  have hpartial : (SpoolFile.partialOf id).owner = id := rfl
  have hmedia : ∀ format, (SpoolFile.media id format).owner = id := fun _ => rfl
  -- on the move of the job
  cases hmoves with
  | begin | publish | settle => exact ⟨rfl, h⟩
  | complete | recordReady | recordFailed => exact ⟨rfl, trivial⟩
  | beginFailed | refuse | createFailed | closeEmpty | flushFailed | publishFailed | completeGone =>
    exact ⟨rfl, h.left rfl⟩
  | timeout _ hp =>
    refine ⟨rfl, h.left ?_⟩
    rcases hp with rfl | ⟨_, rfl⟩ | ⟨_, rfl⟩ | ⟨_, rfl⟩ <;> rfl
  | create =>
    refine ⟨Directory.others_write hpartial, [], ?_, rfl, rfl, Nat.zero_le _, fun _ => rfl, ?_⟩
    · rw [Directory.filesOf_write hpartial, show d.filesOf id = [] from h]
      rfl
    · exact fun _ ht => nomatch ht
  -- a chunk was received
  | @receive w file source now stop fault hread =>
    obtain ⟨bytes, hfiles, hw⟩ := h
    -- the file that is read is the one of the phase
    obtain rfl : bytes = file := by
      rw [← Directory.read_filesOf hpartial, hfiles] at hread
      simpa [Directory.read, Keyed.lookup] using hread
    refine ⟨Directory.others_write hpartial, ?_⟩
    rw [Directory.filesOf_write hpartial, hfiles, Directory.write_singleton]
    rcases receive_cases hcfg hw with
      ⟨error, hq, hlength⟩ | ⟨w', hq, hw'⟩ | ⟨x, hq, hx, hx'⟩ <;> rw [hq]
    · exact .inr (.inl ⟨_, rfl, hlength⟩)
    · exact ⟨_, rfl, hw'⟩
    · exact ⟨by rw [hx], hx'⟩
  -- the stream has ended, and the file is complete
  | close hx =>
    obtain ⟨bytes, hfiles, hw⟩ := h
    obtain ⟨rfl, hx'⟩ := hw.finish hx
    exact ⟨rfl, hfiles, hx'⟩
  -- the file is renamed to its name
  | flush =>
    refine ⟨Directory.others_rename hpartial (hmedia _), ?_, h.2⟩
    rw [Directory.filesOf_rename hpartial (hmedia _), h.1, Directory.rename_singleton]
  | @timeoutRenamed x error =>
    refine ⟨Directory.others_rename hpartial (hmedia _), .inr (.inr ⟨x, h.2, ?_⟩)⟩
    rw [Directory.filesOf_rename hpartial (hmedia _), h.1, Directory.rename_singleton]
  -- what is left after a failure is removed, if that succeeds
  | @discard error removed _ _ =>
    cases removed with
    | false => exact ⟨rfl, h⟩
    | true =>
      refine ⟨Directory.others_removeFile rfl, ?_⟩
      rw [if_pos rfl, Directory.filesOf_removeFile]
      exact Left.removePartial h
  | @retract x error removed =>
    cases removed with
    | false => exact ⟨rfl, .inr (.inr ⟨x, h.2, h.1⟩)⟩
    | true =>
      refine ⟨Directory.others_removeFile rfl, .inl ?_⟩
      rw [if_pos rfl, Directory.filesOf_removeFile, h.1, Directory.removeFile_singleton]

/-- The names stay distinct. -/
theorem distinct_of_moves {kind : JobKind} {found : Option RecordingManifest} {d d' : Directory}
    {e : Event} {p q : JobPhase} {f : RecordingManifest → RecordingManifest}
    (hmoves : Moves cfg sha256 id kind found d e p q f d') (h : Keyed.Distinct Prod.fst d) :
    Keyed.Distinct Prod.fst d' := by
  cases hmoves with
  | create | receive => exact Keyed.distinct_insert h
  | flush | timeoutRenamed => exact Directory.distinct_rename h
  | discard | retract =>
    split_ifs
    · exact Keyed.distinct_remove h
    · exact h
  | _ => exact h

/-- The last steps of a job leave its files alone. -/
theorem directory_of_moves {kind : JobKind} {found : Option RecordingManifest} {d d' : Directory}
    {e : Event} {p q : JobPhase} {f : RecordingManifest → RecordingManifest}
    (hmoves : Moves cfg sha256 id kind found d e p q f d') (hq : q.busy = false) : d' = d := by
  cases hmoves with
  | complete | recordReady | recordFailed => rfl
  | receive => exact nomatch (busy_receive ..).symm.trans hq
  | _ => exact nomatch hq

/-! ### Whole runs -/

/-- Every file belongs to a recording that was asked for, and the files of a recording are those of
its job's phase. -/
structure Filed (cfg : Config) (s : Manager) : Prop extends s.Registered where
  names : Keyed.Distinct Prod.fst s.directory
  owners : ∀ entry ∈ s.directory, entry.1.owner ∈ s.used
  untouched : ∀ e ∈ s.spawning, s.directory.filesOf e.1 = []
  files : ∀ id p, s.phase id = some p → Files cfg.maxBytes id p (s.directory.filesOf id)

/-- There are no files at the start. -/
theorem filed_fresh : Filed cfg {} where
  toRegistered := registered_fresh []
  names := List.nodup_nil
  owners _ h := nomatch h
  untouched _ h := nomatch h
  files _ _ h := nomatch h

/-- There is one file at most. -/
theorem Left.subsingleton {max : ℕ} {files : Directory} (h : Left max id files)
    {a b : SpoolFile × Bytes} (ha : a ∈ files) (hb : b ∈ files) : a = b := by
  rcases h with rfl | ⟨_, rfl, -⟩ | ⟨_, -, rfl⟩
  · exact nomatch ha
  · exact (List.mem_singleton.mp ha).trans (List.mem_singleton.mp hb).symm
  · exact (List.mem_singleton.mp ha).trans (List.mem_singleton.mp hb).symm

theorem owner_mediaPath (d : Directory) (m : RecordingManifest) :
    (mediaPath d m).owner = m.recordingId ∧ (mediaPath d m).isMedia = true := by
  unfold mediaPath
  dsimp only
  split_ifs <;> exact ⟨rfl, rfl⟩

/-- Only the media goes. -/
theorem withoutMedia_sublist (d : Directory) (m : RecordingManifest) :
    (withoutMedia d m).Sublist d := by
  unfold withoutMedia
  split_ifs
  · exact List.filter_sublist
  · exact List.Sublist.refl _

/-- The media of the others stays. -/
theorem others_withoutMedia (d : Directory) (m : RecordingManifest) :
    (withoutMedia d m).others m.recordingId = d.others m.recordingId := by
  unfold withoutMedia
  split_ifs
  · exact Directory.others_removeFile (owner_mediaPath d m).1
  · rfl

/-- An acknowledgement removes the media of a recording that has no job. -/
theorem filed_acknowledged {now : Timestamp} {faults : AckFaults} (h : s.Filed cfg)
    (hrunning : s.running = true) (hack : Acknowledged s id now faults s') : s'.Filed cfg := by
  have hreg := registered_acknowledged h.toRegistered hrunning hack
  -- the directory loses at most the media of a recording that has no job
  have hkeep : ∀ {m : RecordingManifest}, s.state.get id = some m → m.isActive = false →
      s'.directory = withoutMedia s.directory m → s'.used = s.used → s'.spawning = s.spawning →
        s'.phase = s.phase → s'.Filed cfg := by
    intro m hget hinactive hd hused hspawning hphase
    have hid : m.recordingId = id := (State.mem_of_get hget).2
    have hsub : s'.directory ⊆ s.directory := hd ▸ (withoutMedia_sublist s.directory m).subset
    have hothers : s'.directory.others id = s.directory.others id := by
      rw [hd, ← hid]
      exact others_withoutMedia s.directory m
    have hne : ∀ {id'}, s.Running id' → id' ≠ id := by
      rintro id' ⟨⟨m', hm', hactive⟩, -⟩ rfl
      obtain rfl := Option.some.inj (hget.symm.trans hm')
      exact nomatch hactive.symm.trans hinactive
    refine { toRegistered := hreg, names := ?_, owners := ?_, untouched := ?_, files := ?_ }
    · rw [hd]
      exact h.names.sublist ((withoutMedia_sublist s.directory m).map _)
    · exact fun entry hentry => hused ▸ h.owners entry (hsub hentry)
    · intro e he
      -- the recordings that wait are active, and this one is not
      rw [hspawning] at he
      rw [Directory.filesOf_congr hothers (hne (h.waiting e he).2)]
      exact h.untouched e he
    · intro id' p hp
      rw [hphase] at hp
      cases hbusy : p.busy with
      | true =>
        rw [Directory.filesOf_congr hothers (hne (h.busy id' p hp hbusy))]
        exact h.files id' p hp
      | false =>
        cases p with
        | completed | finished => exact trivial
        | _ => exact nomatch hbusy
  cases hack with
  | refused => exact h
  | removed hget hinactive => exact hkeep hget hinactive rfl rfl rfl rfl
  | released hget hinactive => exact hkeep hget hinactive rfl rfl rfl rfl

/-- The step of a job changes the files of its recording only. -/
theorem filed_job {e : Event} {p q : JobPhase} {f : RecordingManifest → RecordingManifest}
    (hcfg : cfg.Bounded) (h : s.Filed cfg) (hjob : JobStep cfg sha256 s e id p q f s') :
    s'.Filed cfg := by
  have hreg := registered_job h.toRegistered hjob
  obtain ⟨kind, hwas, hmoves, hjobs⟩ := hjob.moves
  obtain ⟨hp, hphase⟩ := hjob.phase_eq
  have hused : id ∈ s.used := h.spawned id (hwas ▸ Option.some_ne_none _)
  obtain ⟨hothers, hfiles⟩ := files_of_moves hcfg hmoves (h.files id p hp)
  have hmem : ∀ {entry}, entry ∈ s'.directory → entry.1.owner ≠ id → entry ∈ s.directory := by
    intro entry hentry howner
    have hin : entry ∈ s'.directory.others id := Directory.mem_others.mpr ⟨hentry, howner⟩
    rw [hothers] at hin
    exact (Directory.mem_others.mp hin).1
  refine { toRegistered := hreg, names := distinct_of_moves hmoves h.names, owners := ?_,
           untouched := ?_, files := ?_ }
  -- a file that is new is one of the recording
  · intro entry hentry
    rw [hjob.used]
    by_cases howner : entry.1.owner = id
    · exact howner ▸ hused
    · exact h.owners entry (hmem hentry howner)
  · intro e he
    rw [hjob.spawning] at he
    have hne : e.1 ≠ id := by
      intro heq
      have hnone := (h.waiting e he).1
      rw [heq, hwas] at hnone
      exact nomatch hnone
    rw [Directory.filesOf_congr hothers hne]
    exact h.untouched e he
  -- the files of this job, and those of the others
  · intro id' p' hp'
    rw [hphase] at hp'
    by_cases heq : id' = id
    · subst heq
      rw [Function.update_self] at hp'
      obtain rfl := Option.some.inj hp'
      exact hfiles
    · rw [Function.update_of_ne heq] at hp'
      rw [Directory.filesOf_congr hothers heq]
      exact h.files id' p' hp'

/-- Every step keeps the files in order. -/
theorem filed_step {e : Event} (hcfg : cfg.Bounded) (h : s.Filed cfg)
    (hstep : s.step cfg sha256 e = some s') : s'.Filed cfg := by
  have hreg := registered_step h.toRegistered hstep
  cases step_cases hstep with
  | idle hidle =>
    obtain ⟨hd, -, -, -, hjobs, hspawning, hused⟩ := hidle
    have hphase : s'.phase = s.phase := by
      funext x
      rw [phase, phase, hjobs]
    refine { toRegistered := hreg, names := hd ▸ h.names, owners := ?_, untouched := ?_,
             files := ?_ }
    · rw [hd]
      exact fun entry hentry => hused (h.owners entry hentry)
    · rw [hspawning, hd]
      exact h.untouched
    · rw [hphase, hd]
      exact h.files
  | @admitted _ key m kind scan persist _ _ hadm =>
    have hphase : s'.phase = s.phase := by
      funext x
      rw [phase, phase, hadm.jobs]
    -- a new id owns nothing
    have hnone : s.directory.filesOf m.recordingId = [] := by
      refine List.eq_nil_iff_forall_not_mem.mpr fun entry hentry => ?_
      obtain ⟨hentry, howner⟩ := Directory.mem_filesOf.mp hentry
      exact hadm.fresh (howner ▸ h.owners entry hentry)
    refine { toRegistered := hreg, names := hadm.directory ▸ h.names, owners := ?_,
             untouched := ?_, files := ?_ }
    -- no file is written by the admission
    · rw [hadm.directory, hadm.used]
      exact fun entry hentry => List.mem_append_left _ (h.owners entry hentry)
    · rw [hadm.directory, hadm.spawning]
      split_ifs
      · intro e he
        rw [List.mem_append, List.mem_singleton] at he
        obtain he | rfl := he
        · exact h.untouched e he
        · exact hnone
      · exact h.untouched
    · rw [hphase, hadm.directory]
      exact h.files
  | @spawn id kind hlookup =>
    refine { toRegistered := hreg, names := h.names, owners := h.owners, untouched := ?_,
             files := ?_ }
    · exact fun e he => h.untouched e (Keyed.mem_remove.mp he).1
    -- the job that is spawned has no files yet
    · intro id' p hp
      change (Function.update s.jobs id (some { kind }) id').map Job.phase = some p at hp
      by_cases heq : id' = id
      · subst heq
        rw [Function.update_self] at hp
        obtain rfl := Option.some.inj hp
        exact h.untouched _ (Keyed.mem_of_lookup hlookup).1
      · rw [Function.update_of_ne heq] at hp
        exact h.files id' p hp
  | acknowledge hrunning hack => exact filed_acknowledged h hrunning hack
  | crash =>
    refine
      { toRegistered := hreg
        names := h.names
        owners := h.owners
        untouched := ?_
        files := ?_ }
    · rintro e ⟨⟩
    · rintro id p ⟨⟩
  | restart hres =>
    obtain ⟨-, hjobs, hspawning⟩ := h.stopped hres.stopped
    have hsub : s'.directory ⊆ s.directory := hres.directory ▸ List.filter_subset_self _
    -- the recovery only removes files
    refine { toRegistered := hreg, names := ?_, owners := ?_, untouched := ?_, files := ?_ }
    · rw [hres.directory]
      exact h.names.sublist (List.filter_sublist.map _)
    · exact fun entry hentry => hres.used ▸ h.owners entry (hsub hentry)
    · rw [hres.spawning, hspawning]
      rintro e ⟨⟩
    · intro id p hp
      rw [phase, hres.jobs, hjobs] at hp
      cases hp
  | job hjob => exact filed_job hcfg h hjob

/-- **In every run, the files of a recording are those of its job's phase.** -/
theorem filed_run {events : List Event} (hcfg : cfg.Bounded) (h : s.Filed cfg)
    (hrun : EventSystem.run (step cfg sha256) s events = some s') : s'.Filed cfg :=
  EventSystem.run_keeps (Filed cfg) (fun _ _ _ => filed_step hcfg) h hrun

def sampleRenamed : List Event :=
  [.restart 0 .ok, .start "front" 10 "request-0001" 1 1 (.ok []) .ok, .spawn 1, .begin 1 .ok,
    .create 1 none, .receive 1 [0x00, 0x00, 0x01, 0xba, 1, 2, 3, 4] 2 true none, .flush 1 none]

end Manager

end Recordings

end EzvizBridge
