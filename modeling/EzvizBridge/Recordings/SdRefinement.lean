import EzvizBridge.Recordings.SdDelivery

/-!
# A microSD transfer is a job of the manager

The manager's model has a microSD job whose writer receives any slices and whose session may fail at
any time. `Transfer` says where the slices come from and when the session is joined. Whatever a
transfer does, the manager's job can do as well (`transfer_refines`), so that everything that is
proved of the manager's runs holds of a transfer in detail.

The phases are the same, with one difference: the manager's job removes the partial file and hears
of the session's error in one step, and a transfer does so in two. In between, the manager still has
the file (`Holding`).
-/

namespace EzvizBridge

namespace Recordings

namespace Transfer

variable {cfg : Config} {sha256 : Sha256} {t t' : Transfer} {event : Event} {m : Manager}

/-- Where the manager's job stands. -/
def jobPhase : Capture → JobPhase
  | .media phase => phase
  | .joining (.ok written) | .returned (.ok written) => .written written
  | .joining (.error error) => .discarding error
  | .retracting written error => .retracting written error
  | .returned (.error error) => .failing error

/-- The files of the manager's job; the partial file of a failed transfer may be there still. -/
def Holding (t : Transfer) (files : Directory) : Capture → Prop
  | .joining (.error _) =>
    ∃ removed : Bool, t.directory = if removed then files.removeFile (.partialOf t.id) else files
  | _ => t.directory = files

/-- All that differs is the job of `id` and its files. -/
structure Beside (id : Uuid) (start m : Manager) : Prop where
  jobs : ∀ other, other ≠ id → m.jobs other = start.jobs other
  files : m.directory.others id = start.directory.others id
  rest : { m with jobs := start.jobs, directory := start.directory } = start

theorem Beside.refl (id : Uuid) (m : Manager) : Beside id m m := ⟨fun _ _ => rfl, rfl, rfl⟩

/-- The job goes to another phase, and only its own files change. -/
theorem Beside.goto {start : Manager} {id : Uuid} {d : Directory} (h : Beside id start m)
    (next : JobPhase) (hothers : d.others id = m.directory.others id) :
    Beside id start { m.goto id next with directory := d } where
  jobs other hne := (Function.update_of_ne hne _ _).trans (h.jobs other hne)
  files := hothers.trans h.files
  rest := h.rest

theorem Beside.state {start : Manager} {id : Uuid} (h : Beside id start m) :
    m.state = start.state := by
  rw [← h.rest]

theorem Beside.journal {start : Manager} {id : Uuid} (h : Beside id start m) :
    m.journal = start.journal := by
  rw [← h.rest]

/-- The manager's job stands where the transfer stands, and nothing else has changed since
`start`. -/
structure Matches (start : Manager) (t : Transfer) (m : Manager) : Prop where
  job : m.jobs t.id = some ⟨.sd, jobPhase t.capture⟩
  files : t.Holding (m.directory.filesOf t.id) t.capture
  beside : Beside t.id start m

/-- One event of the manager's job. -/
theorem step_job {kind : JobKind} {phase : JobPhase} {id : Uuid} {e : Recordings.Event}
    (hid : Manager.jobOf e = some id) (hjob : m.jobs id = some ⟨kind, phase⟩) :
    m.step cfg sha256 e = m.advance cfg sha256 id kind phase e := by
  cases e with
  | start | probeSd | startSd | spawn | acknowledge | crash | restart => cases hid
  | _ =>
    cases hid
    simp only [Manager.step, Manager.jobOf, hjob]

theorem jobs_goto {phase : JobPhase} {id : Uuid} (hjob : m.jobs id = some ⟨.sd, phase⟩)
    (next : JobPhase) : (m.goto id next).jobs id = some ⟨.sd, next⟩ := by
  rw [Manager.goto, hjob]
  exact Function.update_self _ _ _

/-- The manager follows with events of the job, or with none. -/
def Followed (cfg : Config) (sha256 : Sha256) (start : Manager) (id : Uuid) (m : Manager)
    (t' : Transfer) : Prop :=
  ∃ js m', (∀ e ∈ js, Manager.jobOf e = some id) ∧
    EventSystem.run (Manager.step cfg sha256) m js = some m' ∧ Matches start t' m'

theorem Followed.stay {start : Manager} {id : Uuid} (h : Matches start t' m) :
    Followed cfg sha256 start id m t' :=
  ⟨[], m, fun _ he => absurd he List.not_mem_nil, rfl, h⟩

theorem Followed.cons {start : Manager} {id : Uuid} {e : Recordings.Event} {m' : Manager}
    (hid : Manager.jobOf e = some id) (hstep : m.step cfg sha256 e = some m')
    (h : Followed cfg sha256 start id m' t') : Followed cfg sha256 start id m t' := by
  obtain ⟨js, m'', hjs, hrun, hmatches⟩ := h
  refine ⟨e :: js, m'', List.forall_mem_cons.mpr ⟨hid, hjs⟩, ?_, hmatches⟩
  rw [EventSystem.run, hstep]
  exact hrun

/-- The job goes to another phase, and its files are as they are to be. -/
theorem Followed.change {start : Manager} {id : Uuid} {e : Recordings.Event}
    {phase next : JobPhase} {d : Directory} (hsame : t'.id = id) (hid : Manager.jobOf e = some id)
    (hjob : m.jobs id = some ⟨.sd, phase⟩)
    (hadvance : m.advance cfg sha256 id .sd phase e = some { m.goto id next with directory := d })
    (hnext : jobPhase t'.capture = next) (hfiles : t'.Holding (d.filesOf id) t'.capture)
    (hothers : d.others id = m.directory.others id) (hbeside : Beside id start m) :
    Followed cfg sha256 start id m t' := by
  refine .cons hid ((step_job hid hjob).trans hadvance) (.stay ⟨?_, hsame.symm ▸ hfiles, ?_⟩)
  · rw [hsame, hnext]
    exact jobs_goto hjob next
  · rw [hsame]
    exact hbeside.goto next hothers

theorem Matches.plays {start : Manager} (h : Matches start t m) (hplays : Plays t t') :
    Followed cfg sha256 start t.id m t' := by
  have hsame : t'.directory = t.directory ∧ t'.id = t.id ∧ t'.capture = t.capture := by
    cases hplays <;> exact ⟨rfl, rfl, rfl⟩
  obtain ⟨hdirectory, hid, hcapture⟩ := hsame
  obtain ⟨hjob, hfiles, hbeside⟩ := h
  refine .stay ⟨?_, ?_, hid ▸ hbeside⟩
  · rw [hid, hcapture]
    exact hjob
  · unfold Holding
    rw [hid, hcapture, hdirectory]
    exact hfiles

theorem Matches.writes {start : Manager} (h : Matches start t m) (hwrites : Writes cfg t event t') :
    Followed cfg sha256 start t.id m t' := by
  obtain ⟨hjob, hfiles, hbeside⟩ := h
  have hpartial : (SpoolFile.partialOf t.id).owner = t.id := rfl
  cases hwrites with
  | failed _ phase error hphase hfails =>
    rw [hphase] at hjob hfiles
    cases hfails with
    | create detail =>
      exact .change rfl (e := .create t.id (some detail)) rfl hjob rfl rfl hfiles rfl hbeside
    | close writer error hfinish =>
      refine .change rfl (e := .close t.id) rfl hjob ?_ rfl hfiles rfl hbeside
      show m.advance cfg sha256 t.id .sd (.writing writer) (.close t.id) = _
      simp only [Manager.advance, hfinish]
      rfl
    | sync detail written =>
      exact .change rfl (e := .flush t.id (some (.sync detail))) rfl hjob rfl rfl hfiles rfl hbeside
    | rename detail written =>
      exact .change rfl (e := .flush t.id (some (.rename detail))) rfl hjob rfl rfl hfiles rfl
        hbeside
    | publish detail written =>
      exact .change rfl (e := .publish t.id (some detail)) rfl hjob rfl rfl hfiles rfl hbeside
    | timeout _ hphase =>
      rcases hphase with rfl | ⟨writer, rfl⟩ | ⟨written, rfl⟩ | ⟨error, rfl⟩
      all_goals exact .change rfl (e := .timeout t.id false) rfl hjob rfl rfl hfiles rfl hbeside
  | created _ phase hphase hfile hnext =>
    rw [hphase] at hjob hfiles
    have hfiles' : t.directory = m.directory.filesOf t.id := hfiles
    have habsent : m.directory.isFile (.partialOf t.id) = false := by
      rwa [hfiles', Directory.isFile, Directory.read_filesOf hpartial] at hfile
    have hcreate : m.advance cfg sha256 t.id .sd .opening (.create t.id none) =
        some { m.goto t.id (.writing {}) with
          directory := m.directory.write (.partialOf t.id) [] } := by
      simp only [Manager.advance, habsent, Bool.false_eq_true, if_false]
    have hwritten : t.directory.write (.partialOf t.id) [] =
        (m.directory.write (.partialOf t.id) []).filesOf t.id := by
      rw [hfiles', Directory.filesOf_write hpartial]
    have hothers : (m.directory.write (.partialOf t.id) []).others t.id = m.directory.others t.id :=
      Directory.others_write hpartial
    rcases hnext with ⟨-, rfl⟩ | ⟨-, rfl⟩
    · exact .change rfl (e := .create t.id none) rfl hjob hcreate rfl hwritten hothers hbeside
    · -- the manager creates the file, and then its time is up
      refine .cons (e := .create t.id none) rfl ((step_job rfl hjob).trans hcreate) ?_
      exact .change rfl (e := .timeout t.id false) rfl (jobs_goto hjob _) rfl rfl hwritten rfl
        (hbeside.goto _ hothers)
  | received writer slice queue file now fault hphase hqueue hfile =>
    rw [hphase] at hjob hfiles
    have hfiles' : t.directory = m.directory.filesOf t.id := hfiles
    rw [hfiles', Directory.read_filesOf hpartial] at hfile
    refine .change rfl (e := .receive t.id slice now false fault) rfl hjob
      (d := m.directory.write (.partialOf t.id)
        (Manager.receive cfg file writer slice now false fault).1)
      ?_ rfl ?_ (Directory.others_write hpartial) hbeside
    · show m.advance cfg sha256 t.id .sd (.writing writer)
        (.receive t.id slice now false fault) = _
      simp only [Manager.advance, hfile, Bool.false_and]
      rfl
    · show t.directory.write (.partialOf t.id) _ = _
      rw [hfiles', Directory.filesOf_write hpartial]
  | closed writer written hphase hclosed hfinish =>
    rw [hphase] at hjob hfiles
    refine .change rfl (e := .close t.id) rfl hjob ?_ rfl hfiles rfl hbeside
    show m.advance cfg sha256 t.id .sd (.writing writer) (.close t.id) = _
    simp only [Manager.advance, hfinish]
    rfl
  | renamed _ written phase hphase hnext =>
    rw [hphase] at hjob hfiles
    have hfiles' : t.directory = m.directory.filesOf t.id := hfiles
    have hrenamed : t.directory.rename (.partialOf t.id) (.media t.id written.format) =
        (m.directory.rename (.partialOf t.id) (.media t.id written.format)).filesOf t.id := by
      rw [hfiles', Directory.filesOf_rename hpartial rfl]
    have hothers := Directory.others_rename (d := m.directory) hpartial
      (rfl : (SpoolFile.media t.id written.format).owner = t.id)
    rcases hnext with ⟨-, rfl⟩ | ⟨-, rfl⟩
    · exact .change rfl (e := .flush t.id none) rfl hjob rfl rfl hrenamed hothers hbeside
    · exact .change rfl (e := .timeout t.id true) rfl hjob rfl rfl hrenamed hothers hbeside
  | published written hphase =>
    rw [hphase] at hjob hfiles
    exact .change rfl (e := .publish t.id none) rfl hjob rfl rfl hfiles rfl hbeside
  | discarded error removed hphase =>
    -- the manager removes the file when the session is joined
    rw [hphase] at hjob hfiles
    have hfiles' : t.directory = m.directory.filesOf t.id := hfiles
    exact .stay ⟨hjob, ⟨removed, by rw [← hfiles']⟩, hbeside⟩
  | broke error error' produced hjoining hended herror =>
    rw [hjoining] at hjob hfiles
    obtain ⟨removed, hfiles'⟩ := hfiles
    have hdirectory : t.directory =
        (if removed then m.directory.removeFile (.partialOf t.id)
          else m.directory).filesOf t.id := by
      rw [hfiles']
      cases removed with
      | false => rfl
      | true => exact Directory.filesOf_removeFile.symm
    have hothers : (if removed then m.directory.removeFile (.partialOf t.id)
        else m.directory).others t.id = m.directory.others t.id := by
      cases removed with
      | false => rfl
      | true => exact Directory.others_removeFile hpartial
    -- the session's own error is the one that counts
    rcases herror with rfl | ⟨rfl, rfl⟩
    · exact .change rfl (e := .discard t.id removed (some error')) rfl hjob rfl rfl hdirectory
        hothers hbeside
    · exact .change rfl (e := .discard t.id removed none) rfl hjob rfl rfl hdirectory
        hothers hbeside
  | refused written error produced hjoining hended herror =>
    rw [hjoining] at hjob hfiles
    exact .change rfl (e := .settle t.id error) rfl hjob rfl rfl hfiles rfl hbeside
  | accepted written hjoining hended hall =>
    rw [hjoining] at hjob hfiles
    exact .stay ⟨hjob, hfiles, hbeside⟩
  | retracted written error removed hretracting =>
    rw [hretracting] at hjob hfiles
    have hfiles' : t.directory = m.directory.filesOf t.id := hfiles
    refine .change rfl (e := .retract t.id removed) rfl hjob rfl rfl ?_ ?_ hbeside
    · show (if removed then t.directory.removeFile (.media t.id written.format)
        else t.directory) = _
      rw [hfiles']
      cases removed with
      | false => rfl
      | true => exact Directory.filesOf_removeFile.symm
    · cases removed with
      | false => rfl
      | true => exact Directory.others_removeFile rfl

theorem Matches.follow {start : Manager} (h : Matches start t m)
    (hstep : t.step cfg event = some t') : Followed cfg sha256 start t.id m t' := by
  rcases step_cases hstep with hplays | hwrites
  · exact h.plays hplays
  · exact h.writes hwrites

/-- Whatever a transfer does, the microSD job of a manager that is about to create its file can do
as well. Other jobs, the files of other recordings, the journal and all else of the manager stay as
they are. -/
theorem transfer_refines {id : Uuid} {past : List Recordings.Event} {events : List Event}
    (hcfg : cfg.Bounded)
    (hreached : EventSystem.run (Manager.step cfg sha256) {} past = some m)
    (hjob : m.jobs id = some ⟨.sd, .opening⟩)
    (hrun : EventSystem.run (step cfg) { id } events = some t) :
    ∃ js m', (∀ e ∈ js, Manager.jobOf e = some id) ∧
      EventSystem.run (Manager.step cfg sha256) {} (past ++ js) = some m' ∧
      m'.jobs id = some ⟨.sd, jobPhase t.capture⟩ ∧
      t.Holding (m'.directory.filesOf id) t.capture ∧ m'.state = m.state ∧
      m'.journal = m.journal ∧ Beside id m m' := by
  have hfiled := Manager.filed_run hcfg Manager.filed_fresh hreached
  have hfiles : m.directory.filesOf id = [] := by
    refine hfiled.files id .opening ?_
    rw [Manager.phase, hjob]
    rfl
  have hstart : Matches m { id } m := ⟨hjob, hfiles.symm, .refl id m⟩
  obtain ⟨js, m', hjs, hrun', hid, hmatches⟩ :=
    EventSystem.run_simulates (Manager.step cfg sha256) (fun t m' => t.id = id ∧ Matches m t m')
      (fun e => Manager.jobOf e = some id)
      (by
        rintro s e s' n ⟨hs, h⟩ hstep
        obtain ⟨js, n', hjs, hn, h'⟩ := h.follow hstep
        exact ⟨js, n', hs ▸ hjs, hn, (step_id hstep).trans hs, h'⟩)
      ⟨rfl, hstart⟩ hrun
  obtain ⟨hjob', hfiles', hbeside⟩ := hmatches
  refine ⟨js, m', hjs, ?_, hid ▸ hjob', hid ▸ hfiles', hbeside.state, hbeside.journal,
    hid ▸ hbeside⟩
  rw [EventSystem.run_append, hreached]
  exact hrun'

/-- A microSD recording is requested, spawned and begun. -/
def sampleRequest : List Recordings.Event :=
  let request : SdRequest := ⟨"front", 0, 10, "request-0001"⟩
  [.restart 0 .ok, .probeSd request false, .startSd request 1 1 (.ok []) .ok, .spawn 1,
    .begin 1 .ok]

theorem transfer_refines_sample :
    ∃ js m', EventSystem.run (Manager.step Manager.sampleConfig Manager.sampleSha256) {}
        (sampleRequest ++ js) = some m' ∧
      m'.jobs 1 = some ⟨.sd, .failing .sdNoRecording⟩ ∧ m'.directory.filesOf 1 = [] := by
  have hcfg : Manager.sampleConfig.Bounded := ⟨by decide, by decide⟩
  obtain ⟨m, hm, hjob⟩ :
      ∃ m ∈ EventSystem.run (Manager.step Manager.sampleConfig Manager.sampleSha256)
        {} sampleRequest,
        m.jobs 1 = some ⟨.sd, .opening⟩ := by
    decide +kernel
  obtain ⟨t, ht, hcapture, hnone⟩ :
      ∃ t ∈ EventSystem.run (step Manager.sampleConfig) { id := 1 } sampleFailure,
        t.capture = .returned (.error .sdNoRecording) ∧ t.directory = [] := by
    decide +kernel
  obtain ⟨js, m', -, hrun, hjob', hfiles, -, -, -⟩ := transfer_refines hcfg hm hjob ht
  rw [hcapture] at hjob' hfiles
  have hfiles' : t.directory = m'.directory.filesOf 1 := hfiles
  exact ⟨js, m', hrun, hjob', by rw [← hfiles', hnone]⟩

end Transfer

end Recordings

end EzvizBridge
