import EzvizBridge.Recordings.Recovery

/-!
# Media that nobody can delete

`acknowledge` removes the media of a `ready` recording only, so a media file whose manifest has
failed stays in the spool for good. A file becomes media inside of `write_partial`, before steps
that may still fail, and the cleanup after a failure knows only the partial file. So a recording can
fail and leave its media behind

* when the directory cannot be synced after the rename,
* when the time limit runs out while the rename is on its way,
* when the media of a failed microSD session cannot be removed, and
* when the process crashes after the rename of a transport stream of less than three packets, which
  the writer accepts and recovery does not.

In a run without these (`Clean`) every media file belongs to a recording that is active or `ready`
(`no_orphaned_media`).
-/

namespace EzvizBridge

namespace Recordings

/-- The recording is there, and it is active or `ready`. -/
def State.Keeps (self : State) (id : Uuid) : Prop :=
  ∃ m, self.get id = some m ∧ (m.isActive = true ∨ m.status = .ready)

theorem State.Runs.keeps {self : State} {id : Uuid} (h : self.Runs id) : self.Keeps id := by
  obtain ⟨m, hm, hactive⟩ := h
  exact ⟨m, hm, .inl hactive⟩

/-- No media are left of a recording. -/
def NoMedia (files : Directory) : Prop := ∀ entry ∈ files, entry.1.isMedia = false

namespace Manager

variable {cfg : Config} {sha256 : Sha256} {s s' : Manager} {id : Uuid}

/-- The step is not one of those after which a recording fails and leaves its media behind. -/
def Clean (s : Manager) : Event → Prop
  | .publish _ fault => fault = none
  | .timeout _ renamed => renamed = false
  | .retract _ removed => removed = true
  | .restart _ _ => ∀ id bytes, (SpoolFile.media id .mpegTs, bytes) ∈ s.directory →
      (loadState s.journal).Runs id → tsPacketBytes * 3 ≤ bytes.length
  | _ => True

/-- The job has given up. -/
def gaveUp : JobPhase → Bool
  | .discarding _ | .failing _ => true
  | _ => false

/-- Every media file is one of a recording that is active or `ready`. -/
structure Kept (cfg : Config) (sha256 : Sha256) (s : Manager) : Prop
    extends s.Described cfg sha256 where
  inMemory : s.running = true → ∀ entry ∈ s.directory, entry.1.isMedia = true →
    s.state.Keeps entry.1.owner
  inJournal : ∀ entry ∈ s.directory, entry.1.isMedia = true →
    (loadState s.journal).Keeps entry.1.owner
  cleared : ∀ id p, s.phase id = some p → gaveUp p = true → NoMedia (s.directory.filesOf id)

theorem kept_fresh : Kept cfg sha256 {} where
  toDescribed := described_fresh
  inMemory h := nomatch h
  inJournal _ h := nomatch h
  cleared _ _ h := nomatch h

/-- A step that leaves the journal alone or writes the new state to it, and adds no media. -/
theorem Kept.of_memory (h : s.Kept cfg sha256) (h' : s'.Described cfg sha256)
    (hd : s'.directory ⊆ s.directory)
    (hjournal : s'.journal = s.journal ∨ s'.journal = some s'.state.journal)
    (hstate : ∀ entry ∈ s'.directory, entry.1.isMedia = true → s'.state.Keeps entry.1.owner)
    (hcleared : ∀ id p, s'.phase id = some p → gaveUp p = true →
      NoMedia (s'.directory.filesOf id)) : s'.Kept cfg sha256 := by
  refine { toDescribed := h', inMemory := fun _ => hstate, inJournal := ?_, cleared := hcleared }
  rcases loadState_cases h'.state hjournal with heq | heq <;> rw [heq]
  · exact fun entry hentry => h.inJournal entry (hd hentry)
  · exact hstate

/-! ### Steps of a job -/

theorem Files.noMedia {max : ℕ} {p : JobPhase} {files : Directory} (h : Files max id p files)
    (hp : p = .queued ∨ p = .opening ∨ (∃ w, p = .writing w) ∨ ∃ x, p = .flushing x) :
    NoMedia files := by
  rcases hp with rfl | rfl | ⟨w, rfl⟩ | ⟨x, rfl⟩
  · exact h ▸ fun _ hentry => nomatch hentry
  · exact h ▸ fun _ hentry => nomatch hentry
  · obtain ⟨bytes, rfl, -⟩ := h
    intro entry hentry
    rw [List.mem_singleton.mp hentry]
    rfl
  · rw [h.1]
    intro entry hentry
    rw [List.mem_singleton.mp hentry]
    rfl

/-- In a clean step, a job gives up before the rename. -/
theorem noMedia_of_moves {kind : JobKind} {d' : Directory} {e : Event} {p q : JobPhase}
    {f : RecordingManifest → RecordingManifest} (hclean : Clean s e)
    (hmoves : Moves cfg sha256 id kind (s.state.get id) s.directory e p q f d')
    (hfound : p.busy = true → s.state.get id ≠ none)
    (hfiles : Files cfg.maxBytes id p (s.directory.filesOf id))
    (hcleared : gaveUp p = true → NoMedia (s.directory.filesOf id)) (hq : gaveUp q = true) :
    NoMedia (d'.filesOf id) := by
  have hpartial : (SpoolFile.partialOf id).owner = id := rfl
  cases hmoves with
  | beginFailed => exact hfiles.noMedia (.inl rfl)
  | refuse | createFailed => exact hfiles.noMedia (.inr (.inl rfl))
  | closeEmpty => exact hfiles.noMedia (.inr (.inr (.inl ⟨_, rfl⟩)))
  | flushFailed => exact hfiles.noMedia (.inr (.inr (.inr ⟨_, rfl⟩)))
  | @receive w file _ _ _ _ hread =>
    -- the partial file is written
    obtain ⟨bytes, hfiles, -⟩ := hfiles
    rw [Directory.filesOf_write hpartial, hfiles, Directory.write_singleton]
    intro entry hentry
    rw [List.mem_singleton.mp hentry]
    rfl
  | timeout error hp =>
    rcases hp with rfl | ⟨w, rfl⟩ | ⟨x, rfl⟩ | ⟨_, rfl⟩
    · exact hfiles.noMedia (.inr (.inl rfl))
    · exact hfiles.noMedia (.inr (.inr (.inl ⟨w, rfl⟩)))
    · exact hfiles.noMedia (.inr (.inr (.inr ⟨x, rfl⟩)))
    · exact hcleared rfl
  | timeoutRenamed => exact nomatch hclean
  | publishFailed => exact nomatch hclean
  | discard =>
    split_ifs
    · rw [Directory.filesOf_removeFile]
      exact fun entry hentry => hcleared rfl entry (Keyed.mem_remove.mp hentry).1
    · exact hcleared rfl
  | @retract x error removed =>
    obtain rfl : removed = true := hclean
    rw [if_pos rfl, Directory.filesOf_removeFile, hfiles.1, Directory.removeFile_singleton]
    exact fun _ hentry => nomatch hentry
  | completeGone _ hnone => exact absurd hnone (hfound rfl)
  | _ => exact nomatch hq

theorem kept_job {e : Event} {p q : JobPhase} {f : RecordingManifest → RecordingManifest}
    (hcfg : cfg.Bounded) (h : s.Kept cfg sha256) (h' : s'.Described cfg sha256) (hclean : Clean s e)
    (hjob : JobStep cfg sha256 s e id p q f s') : s'.Kept cfg sha256 := by
  obtain ⟨kind, hwas, hmoves, -⟩ := hjob.moves
  obtain ⟨hp, hphase⟩ := hjob.phase_eq
  obtain ⟨hothers, hfiles⟩ := files_of_moves hcfg hmoves (h.files id p hp)
  have hf := fun m => (request_of_moves hmoves m).1
  have hq : s'.phase id = some q := by rw [hphase, Function.update_self]
  have hrunning : s.running = true := by
    by_contra hstopped
    rw [Bool.not_eq_true] at hstopped
    exact nomatch hwas.symm.trans ((h.stopped hstopped).2.1 id)
  have hcleared : gaveUp q = true → NoMedia (s'.directory.filesOf id) := by
    refine noMedia_of_moves hclean hmoves ?_ (h.files id p hp) (h.cleared id p hp)
    intro hbusy
    obtain ⟨m, hm, -⟩ := (h.busy id p hp hbusy).1
    exact hm ▸ Option.some_ne_none m
  -- the media of the job's own recording, in memory and in the journal
  have hown : ∀ entry ∈ s'.directory, entry.1.isMedia = true → entry.1.owner = id →
      s'.state.Keeps id ∧ (loadState s.journal).Keeps id := by
    intro entry hentry hmedia howner
    cases hqbusy : q.busy with
    | true =>
      have hbusy := (busy_of_moves hmoves hqbusy).1
      exact ⟨(h'.busy id q hq hqbusy).1.keeps, (h.busy id p hp hbusy).2.keeps⟩
    | false =>
      rw [directory_of_moves hmoves hqbusy] at hentry
      refine ⟨?_, howner ▸ h.inJournal entry hentry hmedia⟩
      obtain ⟨m, hm, hkeeps⟩ := howner ▸ h.inMemory hrunning entry hentry hmedia
      refine ⟨f m, by rw [hjob.state, State.get_update_self hf, hm, Option.map_some], ?_⟩
      generalize s'.directory = d' at hmoves
      cases hmoves with
      | complete => exact .inr rfl
      | recordReady => exact hkeeps
      | recordFailed =>
        -- a job that fails its recording has given up before
        have hnone := h.cleared id _ hp rfl entry (Directory.mem_filesOf.mpr ⟨hentry, howner⟩)
        exact nomatch hmedia.symm.trans hnone
      | receive => exact nomatch (busy_receive ..).symm.trans hqbusy
      | _ => exact nomatch hqbusy
  have hmemory : ∀ entry ∈ s'.directory, entry.1.isMedia = true → s'.state.Keeps entry.1.owner := by
    intro entry hentry hmedia
    by_cases howner : entry.1.owner = id
    · exact howner ▸ (hown entry hentry hmedia howner).1
    · rw [State.Keeps, hjob.state, State.get_update_of_ne hf howner]
      exact h.inMemory hrunning entry (mem_of_others hothers hentry howner) hmedia
  refine { toDescribed := h', inMemory := fun _ => hmemory, inJournal := ?_, cleared := ?_ }
  · rcases loadState_cases h'.state hjob.journal with heq | heq <;> rw [heq]
    · intro entry hentry hmedia
      by_cases howner : entry.1.owner = id
      · exact howner ▸ (hown entry hentry hmedia howner).2
      · exact h.inJournal entry (mem_of_others hothers hentry howner) hmedia
    · exact hmemory
  · intro id' p' hp' hgave
    rw [hphase] at hp'
    by_cases heq : id' = id
    · subst heq
      rw [Function.update_self] at hp'
      obtain rfl := Option.some.inj hp'
      exact hcleared hgave
    · rw [Function.update_of_ne heq] at hp'
      rw [Directory.filesOf_congr hothers heq]
      exact h.cleared id' p' hp' hgave

/-! ### The other steps -/

/-- An acknowledged recording has no media left. -/
theorem withoutMedia_noMedia {m : RecordingManifest} (h : s.Kept cfg sha256)
    (hrunning : s.running = true) (hget : s.state.get id = some m)
    (hinactive : m.isActive = false) :
    ∀ entry ∈ withoutMedia s.directory m, entry.1.isMedia = true → entry.1.owner ≠ id := by
  rintro ⟨name, bytes⟩ hentry hmedia rfl
  have hmem : (name, bytes) ∈ s.directory := (withoutMedia_sublist s.directory m).subset hentry
  obtain ⟨m', hm', hkeeps⟩ := h.inMemory hrunning _ hmem hmedia
  obtain rfl := Option.some.inj (hget.symm.trans hm')
  have hready : m.status = .ready := hkeeps.resolve_left (hinactive ▸ Bool.false_ne_true)
  have hid := (State.mem_of_get hget).2
  cases name with
  | partialOf => exact nomatch hmedia
  | media x format =>
    -- `media_path` leads to this very file
    obtain rfl : m.recordingId = x := hid
    rw [withoutMedia, if_pos hready, mediaPath_of_mem h.names h.single hmem] at hentry
    exact (Keyed.mem_remove.mp hentry).2 rfl

theorem acknowledge_directory {state : State} {d : Directory} {m : RecordingManifest}
    (hget : state.get id = some m) (hinactive : m.isActive = false) (now : Timestamp) :
    (acknowledge state d id now {}).2.2.2 = withoutMedia d m := by
  by_cases hready : m.status = .ready
  · cases hfile : d.isFile (mediaPath d m) with
    | true => simp [acknowledge, hget, hinactive, hready, hfile, withoutMedia]
    | false =>
      simp [acknowledge, hget, hinactive, hready, hfile, withoutMedia, removeFile_of_absent hfile]
  · simp [acknowledge, hget, hinactive, hready, withoutMedia]

theorem kept_restarted {now : Timestamp} {persist : Persist} (h : s.Kept cfg sha256)
    (h' : s'.Described cfg sha256) (hclean : Clean s (.restart now persist))
    (hres : Restarted sha256 s now s') : s'.Kept cfg sha256 := by
  have hsub : s'.directory ⊆ s.directory := hres.directory ▸ List.filter_subset_self _
  have hrecovered : ∀ entry ∈ s'.directory, entry.1.isMedia = true →
      (recover sha256 s.directory now (loadState s.journal)).2.Keeps entry.1.owner := by
    rintro ⟨name, bytes⟩ hentry hmedia
    have hmem := hsub hentry
    obtain ⟨m, hm, hkeeps⟩ := h.inJournal _ hmem hmedia
    have hid := (State.mem_of_get hm).2
    cases name with
    | partialOf => cases hmedia
    | media x format =>
      obtain rfl : m.recordingId = x := hid
      obtain ⟨hvalid, -, hkept⟩ := @recoverManifest_of_mem sha256 _ now m _ _ h.names h.single hmem
      refine ⟨recoverManifest sha256 s.directory now m, ?_, .inr ?_⟩
      · exact get_recover.trans (hm ▸ rfl)
      · cases hactive : m.isActive with
        | true =>
          refine (hvalid hactive ((validHeader_iff (h.started _ _ _ hmem)).mpr ?_)).1
          rintro rfl
          exact hclean _ bytes hmem ⟨m, hm, hactive⟩
        | false =>
          rw [hkept hactive]
          exact hkeeps.resolve_left (hactive ▸ Bool.false_ne_true)
  refine { toDescribed := h', inMemory := ?_, inJournal := ?_, cleared := ?_ }
  · intro hrunning
    rcases hres.state with ⟨-, heq⟩ | ⟨hstopped, -⟩
    · rw [heq]
      exact hrecovered
    · cases hrunning.symm.trans hstopped
  · rcases hres.journal with heq | heq <;> rw [heq]
    · exact fun entry hentry => h.inJournal entry (hsub hentry)
    · rw [State.loadState_journal (sound_recover h.journal s.directory now).consistent]
      exact hrecovered
  · intro id p hp
    rw [phase, hres.jobs, (h.stopped hres.stopped).2.1] at hp
    cases hp

theorem kept_step {e : Event} (hcfg : cfg.Bounded) (h : s.Kept cfg sha256) (hclean : Clean s e)
    (hstep : s.step cfg sha256 e = some s') : s'.Kept cfg sha256 := by
  have h' := described_step hcfg h.toDescribed hstep
  cases step_cases hstep with
  | idle hidle =>
    refine { toDescribed := h', inMemory := ?_, inJournal := ?_, cleared := ?_ }
    · rw [hidle.running, hidle.directory, hidle.state]
      exact h.inMemory
    · rw [hidle.directory, hidle.journal]
      exact h.inJournal
    · intro id p hp
      rw [phase, hidle.jobs] at hp
      rw [hidle.directory]
      exact h.cleared id p hp
  | @admitted _ _ m _ _ _ _ _ hadm =>
    refine h.of_memory h' (hadm.directory ▸ List.Subset.refl _) hadm.journal ?_ ?_
    · intro entry hentry hmedia
      rw [hadm.directory] at hentry
      have hne : entry.1.owner ≠ m.recordingId :=
        fun heq => hadm.fresh (heq ▸ h.owners entry hentry)
      rw [State.Keeps, hadm.state, State.get_enter_of_ne hne]
      exact h.inMemory hadm.wasRunning entry hentry hmedia
    · intro id p hp
      rw [phase, hadm.jobs] at hp
      rw [hadm.directory]
      exact h.cleared id p hp
  | @spawn id kind hlookup =>
    refine { toDescribed := h', inMemory := h.inMemory, inJournal := h.inJournal, cleared := ?_ }
    intro id' p hp hgave
    change (Function.update s.jobs id (some { kind }) id').map Job.phase = some p at hp
    by_cases heq : id' = id
    · subst heq
      rw [Function.update_self] at hp
      obtain rfl := Option.some.inj hp
      cases hgave
    · rw [Function.update_of_ne heq] at hp
      exact h.cleared id' p hp hgave
  | @acknowledge id now faults _ hrunning hack =>
    have hcleared : ∀ {m : RecordingManifest} id' p, s.phase id' = some p → gaveUp p = true →
        NoMedia ((withoutMedia s.directory m).filesOf id') := by
      intro m id' p hp hgave entry hentry
      obtain ⟨hentry, howner⟩ := Directory.mem_filesOf.mp hentry
      refine h.cleared id' p hp hgave entry (Directory.mem_filesOf.mpr ⟨?_, howner⟩)
      exact (withoutMedia_sublist s.directory m).subset hentry
    cases hack with
    | refused => exact h
    | @removed m =>
      have hsub := (withoutMedia_sublist s.directory m).subset
      exact h.of_memory h' hsub (.inl rfl)
        (fun entry hentry => h.inMemory hrunning entry (hsub hentry)) hcleared
    | @released m _ hget hinactive hjournal _ =>
      have hsub := (withoutMedia_sublist s.directory m).subset
      refine h.of_memory h' hsub hjournal ?_ hcleared
      intro entry hentry hmedia
      have hne := withoutMedia_noMedia h hrunning hget hinactive entry hentry hmedia
      change (s.state.release id now).Keeps entry.1.owner
      rw [State.Keeps, State.get_release_of_ne hne]
      exact h.inMemory hrunning entry (hsub hentry) hmedia
  | crash =>
    refine { toDescribed := h', inMemory := ?_, inJournal := h.inJournal, cleared := ?_ }
    · rintro ⟨⟩
    · rintro id p ⟨⟩
  | restart hres => exact kept_restarted h h' hclean hres
  | job hjob => exact kept_job hcfg h h' hclean hjob

/-! ### Whole runs -/

/-- **Where no media are orphaned.** In every run of clean steps, every media file in the spool
belongs to a recording that is active or `ready`, in memory while the process runs and in the
journal always. So a failed recording has no media, and the acknowledgement of a recording leaves
none of its media behind. -/
theorem no_orphaned_media {events : List Event} (hcfg : cfg.Bounded)
    (hclean : EventSystem.Steps (step cfg sha256) Clean {} events)
    (hrun : EventSystem.run (step cfg sha256) {} events = some s) :
    (s.running = true → ∀ entry ∈ s.directory, entry.1.isMedia = true →
      ∃ m, s.state.get entry.1.owner = some m ∧ (m.isActive = true ∨ m.status = .ready)) ∧
    (∀ entry ∈ s.directory, entry.1.isMedia = true →
      ∃ m, (loadState s.journal).get entry.1.owner = some m ∧
        (m.isActive = true ∨ m.status = .ready)) ∧
    (∀ m ∈ s.state.manifests, m.status = .failed → ∀ format bytes,
      (SpoolFile.media m.recordingId format, bytes) ∉ s.directory) ∧
    (∀ m ∈ s.state.manifests, m.isActive = false → ∀ now,
      ∀ entry ∈ (acknowledge s.state s.directory m.recordingId now {}).2.2.2,
        entry.1.isMedia = true → entry.1.owner ≠ m.recordingId) := by
  have hkept : s.Kept cfg sha256 :=
    EventSystem.run_invariant (Kept cfg sha256)
      (fun _ _ _ h => kept_step hcfg h) kept_fresh hclean hrun
  -- a manifest in memory means that the process runs
  have hrunning : ∀ m ∈ s.state.manifests, s.running = true := by
    intro m hm
    by_contra hstopped
    rw [Bool.not_eq_true] at hstopped
    rw [(hkept.stopped hstopped).1] at hm
    exact nomatch hm
  refine ⟨hkept.inMemory, hkept.inJournal, ?_, ?_⟩
  · intro m hm hfailed format bytes hmem
    obtain ⟨m', hm', hkeeps⟩ := hkept.inMemory (hrunning m hm) _ hmem rfl
    obtain rfl := Option.some.inj ((State.get_of_mem hkept.state.consistent hm).symm.trans hm')
    rw [RecordingManifest.isActive, hfailed] at hkeeps
    simp at hkeeps
  · intro m hm hinactive now entry hentry
    have hget := State.get_of_mem hkept.state.consistent hm
    refine withoutMedia_noMedia hkept (hrunning m hm) hget hinactive entry ?_
    exact acknowledge_directory hget hinactive now ▸ hentry

def sampleRecorded : List Event :=
  sampleRenamed ++ [.publish 1 none, .complete 1 3 1000, .record 1 3 .ok]

theorem no_orphaned_media_sample :
    ∃ s, EventSystem.run (step sampleConfig sampleSha256) {} sampleRecorded = some s ∧
      ∃ entry ∈ s.directory, entry.1.isMedia = true ∧
        ∃ m, s.state.get entry.1.owner = some m ∧ (m.isActive = true ∨ m.status = .ready) := by
  obtain ⟨s, hs, hrunning, hmem⟩ :
      ∃ s ∈ EventSystem.run (step sampleConfig sampleSha256) {} sampleRecorded,
        s.running = true ∧
          (SpoolFile.media 1 .mpegPs, [0x00, 0x00, 0x01, 0xba, 1, 2, 3, 4]) ∈ s.directory := by
    decide +kernel
  have hcfg : sampleConfig.Bounded := ⟨by decide, by decide⟩
  have hclean : EventSystem.Steps (step sampleConfig sampleSha256) Clean {} sampleRecorded := by
    -- the first start finds an empty spool; nothing goes wrong later
    refine ⟨fun id bytes hmem => (nomatch hmem), fun s' _ => EventSystem.Steps.of_forall ?_⟩
    simp [Clean]
  exact ⟨s, hs, _, hmem, rfl, (no_orphaned_media hcfg hclean hs).1 hrunning _ hmem rfl⟩

/-- The directory cannot be synced after the rename. The recording fails, its media stay, and they
still stay when it is acknowledged. -/
theorem media_orphaned :
    ∃ s ∈ EventSystem.run (step sampleConfig sampleSha256) {}
        (sampleRenamed ++ [.publish 1 (some "input/output error"), .discard 1 true none,
          .record 1 3 .ok]),
      (∃ m ∈ s.state.manifests, m.recordingId = 1 ∧ m.status = .failed) ∧
      s.directory = [(.media 1 .mpegPs, [0x00, 0x00, 0x01, 0xba, 1, 2, 3, 4])] ∧
      (acknowledge s.state s.directory 1 4 {}).1 = .ok true ∧
      (acknowledge s.state s.directory 1 4 {}).2.2.2 = s.directory := by
  decide +kernel

end Manager

end Recordings

end EzvizBridge
