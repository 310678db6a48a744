import EzvizBridge.Recordings.Manager

/-!
# What one step of the recording manager can do

The results about whole runs rest on three descriptions of a step.

* `advance_cases` — a step of a job moves its phase along `Moves`, changes the manifest of that one
  recording and the files of that one recording, and may write the journal;
* `enqueue_cases` — a request leaves the state alone, or adds one manifest and one key;
* `acknowledge_cases` — an acknowledgement does nothing, removes the media file, or removes it
  together with the manifest and its key.

`step_cases` puts them together.
-/

namespace EzvizBridge

namespace Recordings

namespace Manager

variable {cfg : Config} {sha256 : Sha256} {s s' : Manager}

/-! ### The journal -/

theorem persisted_eq (s : Manager) (write : Option Persist) :
    s.persisted write = { s with journal := (s.persisted write).journal } := by
  cases write with
  | none => rfl
  | some persist =>
    rw [persisted]
    split_ifs <;> rfl

theorem journal_persisted (s : Manager) (write : Option Persist) :
    (s.persisted write).journal = s.journal ∨
      (s.persisted write).journal = some s.state.journal := by
  cases write with
  | none => exact .inl rfl
  | some persist =>
    rw [persisted]
    split_ifs
    · exact .inr rfl
    · exact .inl rfl

/-! ### Jobs -/

/-- The steps of a job: its phase before and after an event, the change to its manifest and the
directory. `found` is its manifest, if it is there. -/
inductive Moves (cfg : Config) (sha256 : Sha256) (id : Uuid) (kind : JobKind)
    (found : Option RecordingManifest) (d : Directory) :
    Event → JobPhase → JobPhase → (RecordingManifest → RecordingManifest) → Directory → Prop
  | begin {persist} : persist.result = .ok () →
      Moves cfg sha256 id kind found d (.begin id persist) .queued .opening
        (fun m => { m with status := .recording }) d
  | beginFailed {persist} (error : BridgeError) :
      Moves cfg sha256 id kind found d (.begin id persist) .queued (.failing error)
        (fun m => { m with status := .recording }) d
  | refuse (error : BridgeError) :
      Moves cfg sha256 id kind found d (.refuse id error) .opening (.failing error) (fun m => m) d
  | createFailed (detail : String) :
      Moves cfg sha256 id kind found d (.create id (some detail)) .opening
        (.discarding (.io detail)) (fun m => m) d
  | create : d.isFile (.partialOf id) = false →
      Moves cfg sha256 id kind found d (.create id none) .opening (.writing {}) (fun m => m)
        (d.write (.partialOf id) [])
  | receive {w file source now stop fault} : d.read (.partialOf id) = some file →
      Moves cfg sha256 id kind found d (.receive id source now stop fault) (.writing w)
        (Manager.receive cfg file w source now (stop && kind = .live) fault).2 (fun m => m)
        (d.write (.partialOf id)
          (Manager.receive cfg file w source now (stop && kind = .live) fault).1)
  | closeEmpty {w} (error : BridgeError) :
      Moves cfg sha256 id kind found d (.close id) (.writing w) (.discarding error) (fun m => m) d
  | close {w x} : w.finish = .ok x →
      Moves cfg sha256 id kind found d (.close id) (.writing w) (.flushing x) (fun m => m) d
  | flushFailed {x fault} (error : BridgeError) :
      Moves cfg sha256 id kind found d (.flush id (some fault)) (.flushing x) (.discarding error)
        (fun m => m) d
  | flush {x} :
      Moves cfg sha256 id kind found d (.flush id none) (.flushing x) (.publishing x) (fun m => m)
        (d.rename (.partialOf id) (.media id x.format))
  | publishFailed {x} (detail : String) :
      Moves cfg sha256 id kind found d (.publish id (some detail)) (.publishing x)
        (.discarding (.io detail)) (fun m => m) d
  | publish {x} :
      Moves cfg sha256 id kind found d (.publish id none) (.publishing x) (.written x)
        (fun m => m) d
  | timeout {p} (error : BridgeError) :
      p = .opening ∨ (∃ w, p = .writing w) ∨ (∃ x, p = .flushing x) ∨ (∃ e, p = .discarding e) →
      Moves cfg sha256 id kind found d (.timeout id false) p (.discarding error) (fun m => m) d
  | timeoutRenamed {x} (error : BridgeError) :
      Moves cfg sha256 id kind found d (.timeout id true) (.flushing x) (.discarding error)
        (fun m => m) (d.rename (.partialOf id) (.media id x.format))
  | discard {error removed session} (error' : BridgeError) :
      Moves cfg sha256 id kind found d (.discard id removed session) (.discarding error)
        (.failing error') (fun m => m) (if removed then d.removeFile (.partialOf id) else d)
  | settle {x} (error : BridgeError) :
      Moves cfg sha256 id kind found d (.settle id error) (.written x) (.retracting x error)
        (fun m => m) d
  | retract {x error removed} :
      Moves cfg sha256 id kind found d (.retract id removed) (.retracting x error)
        (.failing error) (fun m => m) (if removed then d.removeFile (.media id x.format) else d)
  | complete {x now millis} :
      Moves cfg sha256 id kind found d (.complete id now millis) (.written x) .completed
        (fun m => m.publish sha256 x now millis) d
  | completeGone {x now millis} (error : BridgeError) : found = none →
      Moves cfg sha256 id kind found d (.complete id now millis) (.written x) (.failing error)
        (fun m => m) d
  | recordReady {now persist} :
      Moves cfg sha256 id kind found d (.record id now persist) .completed .finished
        (fun m => m) d
  | recordFailed {error now persist} :
      Moves cfg sha256 id kind found d (.record id now persist) (.failing error) .finished
        (fun m => m.fail (failureCode error) now) d

/-- A step of the job of `id`, and everything that stays. -/
structure JobStep (cfg : Config) (sha256 : Sha256) (s : Manager) (e : Event) (id : Uuid)
    (p q : JobPhase) (f : RecordingManifest → RecordingManifest) (s' : Manager) : Prop where
  moves : ∃ kind, s.jobs id = some ⟨kind, p⟩ ∧
    Moves cfg sha256 id kind (s.state.get id) s.directory e p q f s'.directory ∧
    s'.jobs = Function.update s.jobs id (some ⟨kind, q⟩)
  state : s'.state = s.state.update id f
  journal : s'.journal = s.journal ∨ s'.journal = some s'.state.journal
  running : s'.running = s.running
  used : s'.used = s.used
  spawning : s'.spawning = s.spawning

theorem update_of_get_eq_none {state : State} {id : Uuid} (h : state.get id = none)
    (f : RecordingManifest → RecordingManifest) : state.update id f = state := by
  have hmap : Keyed.modify RecordingManifest.recordingId state.manifests id f =
      state.manifests := by
    refine List.map_congr_left (g := fun m => m) (fun m hm => ?_) |>.trans (List.map_id' _)
    exact if_neg (Keyed.lookup_eq_none.mp h m hm)
  rw [State.update, hmap]

theorem update_fun_id (state : State) (id : Uuid) : state.update id (fun m => m) = state := by
  have hmap : Keyed.modify RecordingManifest.recordingId state.manifests id (fun m => m) =
      state.manifests := by
    refine List.map_congr_left (g := fun m => m) (fun m _ => ?_) |>.trans (List.map_id' _)
    exact ite_self m
  rw [State.update, hmap]

theorem goto_jobs {id : Uuid} {kind : JobKind} {p : JobPhase} (h : s.jobs id = some ⟨kind, p⟩)
    (q : JobPhase) : (s.goto id q).jobs = Function.update s.jobs id (some ⟨kind, q⟩) := by
  rw [goto, h]
  rfl

/-- A step that only moves the phase and changes the directory. -/
theorem jobStep_files {id : Uuid} {kind : JobKind} {e : Event} {p q : JobPhase} {d : Directory}
    (hjob : s.jobs id = some ⟨kind, p⟩)
    (hmoves : Moves cfg sha256 id kind (s.state.get id) s.directory e p q (fun m => m) d) :
    JobStep cfg sha256 s e id p q (fun m => m) { s.goto id q with directory := d } where
  moves := ⟨kind, hjob, hmoves, goto_jobs hjob q⟩
  state := (update_fun_id _ _).symm
  journal := .inl rfl
  running := rfl
  used := rfl
  spawning := rfl

/-- A step under the guard of the state, with a write of the journal or without. -/
theorem jobStep_state {id : Uuid} {kind : JobKind} {e : Event} {p q : JobPhase}
    {f : RecordingManifest → RecordingManifest} (write : Option Persist)
    (hjob : s.jobs id = some ⟨kind, p⟩)
    (hmoves : Moves cfg sha256 id kind (s.state.get id) s.directory e p q f s.directory) :
    JobStep cfg sha256 s e id p q f
      (({ s with state := s.state.update id f } : Manager).persisted write |>.goto id q) := by
  set t : Manager := { s with state := s.state.update id f } with ht
  have heq := persisted_eq t write
  have hjournal := journal_persisted t write
  rw [heq]
  exact ⟨⟨kind, hjob, hmoves, goto_jobs (s := t) hjob q⟩, rfl, hjournal, rfl, rfl, rfl⟩

/-- **What a step of a job can do.** -/
theorem advance_cases {id : Uuid} {kind : JobKind} {p : JobPhase} {e : Event}
    (hid : jobOf e = some id) (hjob : s.jobs id = some ⟨kind, p⟩)
    (h : s.advance cfg sha256 id kind p e = some s') :
    ∃ q f, JobStep cfg sha256 s e id p q f s' := by
  have hgone : ∀ {q : JobPhase} {f : RecordingManifest → RecordingManifest},
      s.state.get id = none →
        Moves cfg sha256 id kind (s.state.get id) s.directory e p q f s.directory →
          JobStep cfg sha256 s e id p q f (s.goto id q) := by
    intro q f hnone hmoves
    exact ⟨⟨kind, hjob, hmoves, goto_jobs hjob q⟩, (update_of_get_eq_none hnone f).symm, .inl rfl,
      rfl, rfl, rfl⟩
  unfold advance at h
  split at h
  case h_1 persist =>
    obtain rfl := Option.some.inj hid
    split at h
    · rename_i hnone
      obtain rfl := Option.some.inj h
      exact ⟨_, _, hgone hnone (.beginFailed _)⟩
    · split at h <;> obtain rfl := Option.some.inj h
      · rename_i hok
        exact ⟨_, _, jobStep_state (some persist) hjob (.begin hok)⟩
      · exact ⟨_, _, jobStep_state (some persist) hjob (.beginFailed _)⟩
  case h_2 =>
    obtain rfl := Option.some.inj hid
    obtain rfl := Option.some.inj h
    exact ⟨_, _, jobStep_files hjob (.refuse _)⟩
  case h_3 fault =>
    obtain rfl := Option.some.inj hid
    split at h
    · obtain rfl := Option.some.inj h
      exact ⟨_, _, jobStep_files hjob (.createFailed _)⟩
    · split_ifs at h with hfile
      obtain rfl := Option.some.inj h
      exact ⟨_, _, jobStep_files hjob (.create (Bool.not_eq_true _ ▸ hfile))⟩
  case h_4 writer _ source now stop fault =>
    obtain rfl := Option.some.inj hid
    split at h
    · exact nomatch h
    · rename_i file hfile
      obtain rfl := Option.some.inj h
      exact ⟨_, _, jobStep_files hjob (.receive hfile)⟩
  case h_5 =>
    obtain rfl := Option.some.inj hid
    split at h <;> obtain rfl := Option.some.inj h
    · exact ⟨_, _, jobStep_files hjob (.closeEmpty _)⟩
    · rename_i hx
      exact ⟨_, _, jobStep_files hjob (.close hx)⟩
  case h_6 | h_7 =>
    obtain rfl := Option.some.inj hid
    obtain rfl := Option.some.inj h
    exact ⟨_, _, jobStep_files hjob (.flushFailed _)⟩
  case h_8 =>
    obtain rfl := Option.some.inj hid
    obtain rfl := Option.some.inj h
    exact ⟨_, _, jobStep_files hjob .flush⟩
  case h_9 =>
    obtain rfl := Option.some.inj hid
    obtain rfl := Option.some.inj h
    exact ⟨_, _, jobStep_files hjob (.publishFailed _)⟩
  case h_10 =>
    obtain rfl := Option.some.inj hid
    obtain rfl := Option.some.inj h
    exact ⟨_, _, jobStep_files hjob .publish⟩
  case h_11 =>
    obtain rfl := Option.some.inj hid
    obtain rfl := Option.some.inj h
    exact ⟨_, _, jobStep_files hjob (.timeout _ (.inl rfl))⟩
  case h_12 =>
    obtain rfl := Option.some.inj hid
    obtain rfl := Option.some.inj h
    exact ⟨_, _, jobStep_files hjob (.timeout _ (.inr (.inl ⟨_, rfl⟩)))⟩
  case h_13 =>
    obtain rfl := Option.some.inj hid
    obtain rfl := Option.some.inj h
    exact ⟨_, _, jobStep_files hjob (.timeout _ (.inr (.inr (.inl ⟨_, rfl⟩))))⟩
  case h_14 =>
    obtain rfl := Option.some.inj hid
    obtain rfl := Option.some.inj h
    exact ⟨_, _, jobStep_files hjob (.timeout _ (.inr (.inr (.inr ⟨_, rfl⟩))))⟩
  case h_15 =>
    obtain rfl := Option.some.inj hid
    obtain rfl := Option.some.inj h
    exact ⟨_, _, jobStep_files hjob (.timeoutRenamed _)⟩
  case h_16 =>
    obtain rfl := Option.some.inj hid
    obtain rfl := Option.some.inj h
    exact ⟨_, _, jobStep_files hjob (.discard _)⟩
  case h_17 =>
    obtain rfl := Option.some.inj hid
    obtain ⟨-, rfl⟩ := EventSystem.guarded h
    exact ⟨_, _, jobStep_files hjob (.settle _)⟩
  case h_18 =>
    obtain rfl := Option.some.inj hid
    obtain rfl := Option.some.inj h
    exact ⟨_, _, jobStep_files hjob .retract⟩
  case h_19 =>
    obtain rfl := Option.some.inj hid
    split at h <;> obtain rfl := Option.some.inj h
    · rename_i hnone
      refine ⟨_, _, jobStep_files hjob (.completeGone _ hnone)⟩
    · exact ⟨_, _, jobStep_state none hjob .complete⟩
  case h_20 _ now persist =>
    obtain rfl := Option.some.inj hid
    split at h <;> obtain rfl := Option.some.inj h
    · rename_i hnone
      exact ⟨_, _, hgone hnone .recordReady⟩
    · -- the manifest is as `complete` left it
      have hstep : JobStep cfg sha256 s (.record _ now persist) _ _ _ _ _ :=
        jobStep_state (some persist) hjob .recordReady
      rw [update_fun_id] at hstep
      exact ⟨_, _, hstep⟩
  case h_21 persist =>
    obtain rfl := Option.some.inj hid
    split at h <;> obtain rfl := Option.some.inj h
    · rename_i hnone
      exact ⟨_, _, hgone hnone .recordFailed⟩
    · exact ⟨_, _, jobStep_state (some persist) hjob .recordFailed⟩
  case h_22 => exact nomatch h

/-! ### Requests -/

/-- A step that the recordings do not see: a request that is turned away or answered with what is
there already, or the first guard of `start_sd`. -/
structure Idle (s s' : Manager) : Prop where
  directory : s'.directory = s.directory
  journal : s'.journal = s.journal
  running : s'.running = s.running
  state : s'.state = s.state
  jobs : s'.jobs = s.jobs
  spawning : s'.spawning = s.spawning
  used : s.used ⊆ s'.used

/-- The recording that an event asks for, under which key. -/
inductive Requests : Event → String → RecordingManifest → JobKind → Except BridgeError Directory →
    Persist → Prop
  | start {camera duration key id now scan persist} :
      Requests (.start camera duration key id now scan persist) key
        (.pending id now camera duration)
        .live scan persist
  | startSd {request id now scan persist} :
      Requests (.startSd request id now scan persist) request.key
        (.pendingSd id now request.camera request.start request.stop) .sd scan persist

/-- The request is admitted: it is neither an error nor answered with an existing recording. -/
def Accepts (cfg : Config) (s : Manager) (key : String) (m : RecordingManifest) (kind : JobKind)
    (scan : Except BridgeError Directory) : Prop :=
  Recordings.admission cfg s.state key m (kind = .sd) (scan.map spoolBytes) = .ok none

/-- A request that is admitted: its manifest and its key are there from now on; a job follows if the
journal was written. -/
structure Admitted (cfg : Config) (s : Manager) (key : String) (m : RecordingManifest)
    (kind : JobKind) (scan : Except BridgeError Directory) (persist : Persist) (s' : Manager) :
    Prop where
  wasRunning : s.running = true
  fresh : m.recordingId ∉ s.used
  pending : m.status = .pending
  scanned : ∃ entries, scan = .ok entries ∧ s.Scanned entries
  accepts : Accepts cfg s key m kind scan
  directory : s'.directory = s.directory
  journal : s'.journal = s.journal ∨ s'.journal = some s'.state.journal
  written : persist = .ok → s'.journal = some s'.state.journal
  running : s'.running = true
  state : s'.state = s.state.enter key m
  jobs : s'.jobs = s.jobs
  spawning : s'.spawning =
    if persist = .ok then s.spawning ++ [(m.recordingId, kind)] else s.spawning
  used : s'.used = s.used ++ [m.recordingId]

theorem enqueue_cases {key : String} {m : RecordingManifest} {kind : JobKind}
    {scan : Except BridgeError Directory} {persist : Persist} (hm : m.status = .pending)
    (hcan : s.canEnqueue m.recordingId scan) :
    Idle s (s.enqueue cfg key m kind scan persist) ∨
      Admitted cfg s key m kind scan persist (s.enqueue cfg key m kind scan persist) := by
  obtain ⟨hrunning, hfresh, hscan⟩ := hcan
  have hkept : s.used ⊆ s.used ++ [m.recordingId] := List.subset_append_left _ _
  rw [enqueue, Recordings.enqueue]
  cases hadm : Recordings.admission cfg s.state key m (kind = .sd) (scan.map spoolBytes) with
  | error error => exact .inl ⟨rfl, rfl, rfl, rfl, rfl, rfl, hkept⟩
  | ok found =>
    cases found with
    | some existing => exact .inl ⟨rfl, rfl, rfl, rfl, rfl, rfl, hkept⟩
    | none =>
      -- only a scan that went through admits anything
      obtain ⟨entries, rfl⟩ : ∃ entries, scan = .ok entries := by
        cases scan with
        | ok entries => exact ⟨entries, rfl⟩
        | error error =>
          simp only [Recordings.admission, Except.map] at hadm
          split_ifs at hadm
          all_goals (repeat' split at hadm) <;> simp at hadm
      have hscanned := hscan entries rfl
      refine .inr ?_
      have heq := persisted_eq { s with
        state := s.state.enter key m, used := s.used ++ [m.recordingId] } (some persist)
      have hjournal := journal_persisted { s with
        state := s.state.enter key m, used := s.used ++ [m.recordingId] } (some persist)
      cases persist with
      | ok =>
        exact ⟨hrunning, hfresh, hm, ⟨entries, rfl, hscanned⟩, hadm, rfl, .inr rfl, fun _ => rfl,
          hrunning, rfl, rfl, rfl, rfl⟩
      | failed renamed detail =>
        dsimp only
        rw [heq]
        exact ⟨hrunning, hfresh, hm, ⟨entries, rfl, hscanned⟩, hadm, rfl, hjournal, (nomatch ·),
          hrunning, rfl, rfl, rfl, rfl⟩

/-! ### Acknowledgements -/

theorem removeFile_of_absent {d : Directory} {name : SpoolFile} (h : d.isFile name = false) :
    d.removeFile name = d := by
  have hnone : Keyed.lookup Prod.fst d name = none := by
    simpa [Directory.isFile, Directory.read] using h
  refine List.filter_eq_self.mpr fun entry hentry => ?_
  exact decide_eq_true (Keyed.lookup_eq_none.mp hnone entry hentry)

/-- The directory after the removal of an acknowledged recording: only that of a `ready` one has
media to remove. -/
def withoutMedia (d : Directory) (m : RecordingManifest) : Directory :=
  if m.status = .ready then d.removeFile (mediaPath d m) else d

/-- What an acknowledgement can do. -/
inductive Acknowledged (s : Manager) (id : Uuid) (now : Timestamp) (faults : AckFaults) :
    Manager → Prop
  | refused : Acknowledged s id now faults s
  | removed {m : RecordingManifest} : s.state.get id = some m → m.isActive = false →
      Acknowledged s id now faults { s with directory := withoutMedia s.directory m }
  | released {m : RecordingManifest} {journal : Option Journal} :
      s.state.get id = some m → m.isActive = false →
      journal = s.journal ∨ journal = some (s.state.release id now).journal →
      (faults.persist = .ok → journal = some (s.state.release id now).journal) →
      Acknowledged s id now faults
        { s with state := s.state.release id now, directory := withoutMedia s.directory m, journal }

theorem acknowledge_cases (s : Manager) (id : Uuid) (now : Timestamp) (faults : AckFaults) :
    Acknowledged s id now faults
      (({ s with
          state := (acknowledge s.state s.directory id now faults).2.2.1
          directory := (acknowledge s.state s.directory id now faults).2.2.2 } : Manager).persisted
        (acknowledge s.state s.directory id now faults).2.1) := by
  cases hget : s.state.get id with
  | none =>
    simp only [acknowledge, hget]
    exact .refused
  | some m =>
    cases hactive : m.isActive with
    | true =>
      simp only [acknowledge, hget, hactive, if_pos]
      exact .refused
    | false =>
      have hreleased : ∀ d, d = withoutMedia s.directory m →
          Acknowledged s id now faults
            (({ s with state := s.state.release id now, directory := d } : Manager).persisted
              (some faults.persist)) := by
        rintro d rfl
        rw [persisted_eq]
        refine .released hget hactive (journal_persisted _ _) fun hok => ?_
        rw [hok]
        rfl
      by_cases hfile : m.status = .ready ∧ s.directory.isFile (mediaPath s.directory m) = true
      · have hd : s.directory.removeFile (mediaPath s.directory m) = withoutMedia s.directory m :=
          (if_pos hfile.1).symm
        rcases hremoval : faults.removal with _ | detail
        · rcases hsync : faults.sync with _ | detail
          · simpa [acknowledge, hget, hactive, hfile, hremoval, hsync] using hreleased _ hd
          · have hstep : Acknowledged s id now faults _ := .removed hget hactive
            simpa [acknowledge, hget, hactive, hfile, hremoval, hsync, ← hd, persisted] using hstep
        · have hstep : Acknowledged s id now faults s := .refused
          simpa [acknowledge, hget, hactive, hfile, hremoval, persisted] using hstep
      · have hd : s.directory = withoutMedia s.directory m := by
          rw [withoutMedia]
          split_ifs with hready
          · exact (removeFile_of_absent (by simpa [hready] using hfile)).symm
          · rfl
        simpa [acknowledge, hget, hactive, hfile] using hreleased _ hd

/-! ### All steps -/

/-- The process is started, or its start fails after the recovery. -/
structure Restarted (sha256 : Sha256) (s : Manager) (now : Timestamp) (s' : Manager) : Prop where
  stopped : s.running = false
  directory : s'.directory = removePartialFiles s.directory
  state : s'.running = true ∧ s'.state = (recover sha256 s.directory now (loadState s.journal)).2 ∨
    s'.running = false ∧ s'.state = {}
  journal : s'.journal = s.journal ∨
    s'.journal = some (recover sha256 s.directory now (loadState s.journal)).2.journal
  jobs : s'.jobs = s.jobs
  spawning : s'.spawning = s.spawning
  used : s'.used = s.used

/-- What one step of the manager can do. -/
inductive Changes (cfg : Config) (sha256 : Sha256) (s : Manager) : Event → Manager → Prop
  | idle {e s'} : Idle s s' → Changes cfg sha256 s e s'
  | admitted {e key m kind scan persist s'} : Requests e key m kind scan persist →
      Admitted cfg s key m kind scan persist s' → Changes cfg sha256 s e s'
  | spawn {id kind} : Keyed.lookup Prod.fst s.spawning id = some (id, kind) →
      Changes cfg sha256 s (.spawn id)
        { s with
          spawning := Keyed.remove Prod.fst s.spawning id
          jobs := Function.update s.jobs id (some { kind }) }
  | acknowledge {id now faults s'} : s.running = true → Acknowledged s id now faults s' →
      Changes cfg sha256 s (.acknowledge id now faults) s'
  | crash : Changes cfg sha256 s .crash
      { directory := s.directory, journal := s.journal, used := s.used }
  | restart {now persist s'} : Restarted sha256 s now s' →
      Changes cfg sha256 s (.restart now persist) s'
  | job {e id p q f s'} : JobStep cfg sha256 s e id p q f s' → Changes cfg sha256 s e s'

/-- **What one step can do.** -/
theorem step_cases {e : Event} (h : s.step cfg sha256 e = some s') : Changes cfg sha256 s e s' := by
  unfold step at h
  split at h
  case h_1 camera duration key id now scan persist =>
    split_ifs at h with hcan
    split at h <;> obtain rfl := Option.some.inj h
    · exact .idle ⟨rfl, rfl, rfl, rfl, rfl, rfl, List.Subset.refl _⟩
    · exact (enqueue_cases rfl hcan).elim .idle (.admitted .start)
  case h_2 request live =>
    split_ifs at h
    split at h <;> obtain rfl := Option.some.inj h
    · exact .idle ⟨rfl, rfl, rfl, rfl, rfl, rfl, List.Subset.refl _⟩
    · exact .idle ⟨rfl, rfl, rfl, rfl, rfl, rfl, List.Subset.refl _⟩
  case h_3 request id now scan persist =>
    obtain ⟨⟨hcan, -⟩, rfl⟩ := EventSystem.guarded h
    -- the manager without the probed request differs in nothing else
    set t : Manager := { s with probed := s.probed.erase request }
    set m := RecordingManifest.pendingSd id now request.camera request.start request.stop
    have hcases : Idle t (t.enqueue cfg request.key m .sd scan persist) ∨
        Admitted cfg t request.key m .sd scan persist
          (t.enqueue cfg request.key m .sd scan persist) :=
      enqueue_cases rfl hcan
    rcases hcases with hidle | hadm
    · exact .idle ⟨hidle.directory, hidle.journal, hidle.running, hidle.state, hidle.jobs,
        hidle.spawning, hidle.used⟩
    · exact .admitted .startSd ⟨hadm.wasRunning, hadm.fresh, hadm.pending, hadm.scanned,
        hadm.accepts, hadm.directory, hadm.journal, hadm.written, hadm.running,
        hadm.state, hadm.jobs, hadm.spawning, hadm.used⟩
  case h_4 id =>
    split at h
    · exact nomatch h
    · rename_i id' kind hlookup
      obtain rfl := Option.some.inj h
      obtain rfl : id' = id := (Keyed.mem_of_lookup hlookup).2
      exact .spawn hlookup
  case h_5 id now faults =>
    obtain ⟨hrunning, rfl⟩ := EventSystem.guarded h
    exact .acknowledge hrunning (acknowledge_cases s id now faults)
  case h_6 =>
    obtain rfl := Option.some.inj h
    exact .crash
  case h_7 now persist =>
    split_ifs at h with hrunning
    rw [Bool.not_eq_true] at hrunning
    set t : Manager := { s with
      directory := (recover sha256 s.directory now (loadState s.journal)).1
      state := (recover sha256 s.directory now (loadState s.journal)).2 } with ht
    have heq := persisted_eq t (some persist)
    have hjournal := journal_persisted t (some persist)
    dsimp only at h
    rw [← ht] at h
    split at h <;> obtain rfl := Option.some.inj h
    · rw [heq]
      exact .restart ⟨hrunning, rfl, .inl ⟨rfl, rfl⟩, hjournal, rfl, rfl, rfl⟩
    · rw [heq]
      exact .restart ⟨hrunning, rfl, .inr ⟨hrunning, rfl⟩, hjournal, rfl, rfl, rfl⟩
  case h_8 =>
    split at h
    · exact nomatch h
    · rename_i id hid
      split at h
      · exact nomatch h
      · rename_i job hjob
        obtain ⟨q, f, hstep⟩ := advance_cases hid hjob h
        exact .job hstep

end Manager

end Recordings

end EzvizBridge
