import EzvizBridge.Recordings.Recovery

/-!
# What becomes of one recording and of its key

A client that comes back to the bridge finds what the process has in memory, or what its journal
will give it after the next start (`known`). Where every write of the journal succeeds, the two
differ only for a recording between `complete` and the end of `record` (`Synced`). Unless the
process crashes at that moment, a step changes what is known of a recording in one of the ways of
`Turns`: an active recording moves on, a `ready` one whose media is gone fails at a restart, and an
acknowledged one disappears. Media of a recording that is not active disappear only with its
acknowledgement.

A recording that is in neither does not come back (`dropped_step`), and where every acknowledgement
writes the journal, one that is not in memory is in neither (`Attuned`).

A key that was given out stays with its recording, and after that with its tombstone, until 4096
later tombstones have pushed that one out (`Owned`).
-/

namespace EzvizBridge

namespace Recordings

namespace Manager

variable {cfg : Config} {sha256 : Sha256} {s s' : Manager} {id : Uuid} {e : Event}

/-- The state of the process, or else the one it would start with. -/
def known (s : Manager) : State := if s.running then s.state else loadState s.journal

/-- What is known while the bridge runs is its memory. -/
theorem known_of_running (h : s.running = true) : s.known = s.state := if_pos h

theorem known_of_stopped (h : s.running = false) : s.known = loadState s.journal := by
  rw [known, h]
  rfl

/-- A step that changes nothing changes nothing that is known. -/
theorem Idle.known (h : Idle s s') : s'.known = s.known := by
  rw [Manager.known, Manager.known, h.running, h.state, h.journal]

theorem Coherent.known (h : s.Coherent) : Sound s.used s.known := by
  rw [Manager.known]
  split_ifs
  · exact h.state
  · exact h.journal

/-! ### Memory and journal -/

/-- Memory and journal have the same manifests, but for recordings that were published and not yet
stored as such. -/
def Synced (s : Manager) : Prop :=
  s.running = true → ∀ id, (loadState s.journal).get id = s.state.get id ∨
    s.phase id = some .completed ∧ s.state.get id ≠ none

/-- Every `ready` manifest has the time of its completion. -/
def Dated (s : Manager) : Prop := ∀ m, s.Knows m → m.status = .ready → m.completedAt.isSome = true

/-- The invariant of runs in which the journal can be written. -/
structure Orderly (cfg : Config) (sha256 : Sha256) (s : Manager) : Prop
    extends s.Described cfg sha256 where
  durable : s.Durable
  synced : s.Synced
  dated : s.Dated

theorem orderly_fresh : Orderly cfg sha256 {} where
  toDescribed := described_fresh
  durable h := nomatch h
  synced h := nomatch h
  dated _ h _ := h.elim (fun hm => nomatch hm) fun hm => nomatch hm

/-- A step that leaves the journal alone or writes the new state to it. -/
theorem Dated.of_state (h : s.Dated) (hcoherent : s'.Coherent)
    (hjournal : s'.journal = s.journal ∨ s'.journal = some s'.state.journal)
    (hstate : ∀ m ∈ s'.state.manifests, m.status = .ready → m.completedAt.isSome = true) :
    s'.Dated := by
  rintro m (hm | hm)
  · exact hstate m hm
  · rcases loadState_cases hcoherent.state hjournal with heq | heq <;> rw [heq] at hm
    · exact h m (.inr hm)
    · exact hstate m hm

/-- Recovery dates what it publishes. -/
theorem dated_recoverManifest {d : Directory} {now : Timestamp} {m : RecordingManifest}
    (h : m.status = .ready → m.completedAt.isSome = true)
    (hready : (recoverManifest sha256 d now m).status = .ready) :
    (recoverManifest sha256 d now m).completedAt.isSome = true := by
  unfold recoverManifest at hready ⊢
  dsimp only at hready ⊢
  split_ifs at hready ⊢ with hactive hmissing
  · split <;> rfl
  · rfl
  · exact h hready

/-- A recording that is ready has a time of completion. -/
theorem dated_step (h : s.Dated) (hcoherent : s.Coherent) (hstep : s.step cfg sha256 e = some s') :
    s'.Dated := by
  have h' := coherent_step hcoherent hstep
  cases step_cases hstep with
  | idle hidle =>
    intro m hm
    rw [Knows, hidle.state, hidle.journal] at hm
    exact h m hm
  -- the new recording is not ready
  | admitted _ hadm =>
    refine h.of_state h' hadm.journal fun m hm hready => ?_
    rw [hadm.state] at hm
    rcases Keyed.mem_insert.mp hm with ⟨hm, -⟩ | rfl
    · exact h m (.inl hm) hready
    · cases hadm.pending.symm.trans hready
  | spawn _ => exact h
  | acknowledge _ hack =>
    cases hack with
    | refused => exact h
    | removed => exact h
    | released _ _ hjournal _ =>
      refine h.of_state h' hjournal fun m hm => ?_
      exact h m (.inl (Keyed.mem_remove.mp hm).1)
  | crash => exact fun m hm => h m (.inr (hm.resolve_left List.not_mem_nil))
  -- recovery makes nothing ready without a time
  | @restart now _ _ hres =>
    have hrecovered : ∀ m ∈ (recover sha256 s.directory now (loadState s.journal)).2.manifests,
        m.status = .ready → m.completedAt.isSome = true := by
      intro m hm hready
      obtain ⟨m₀, hm₀, rfl⟩ := List.mem_map.mp hm
      exact dated_recoverManifest (h m₀ (.inr hm₀)) hready
    -- known by the memory, or by the journal
    rintro m (hm | hm)
    · rcases hres.state with ⟨-, heq⟩ | ⟨-, heq⟩ <;> rw [heq] at hm
      · exact hrecovered m hm
      · cases hm
    · rcases hres.journal with heq | heq <;> rw [heq] at hm
      · exact h m (.inr hm)
      · have hsound := @sound_recover sha256 _ _ hcoherent.journal s.directory now
        rw [State.loadState_journal hsound.consistent] at hm
        exact hrecovered m hm
  | job hjob =>
    obtain ⟨kind, -, hmoves, -⟩ := hjob.moves
    refine h.of_state h' hjob.journal fun m hm hready => ?_
    rw [hjob.state] at hm
    obtain ⟨m₀, hm₀, rfl⟩ := Keyed.mem_modify.mp hm
    split_ifs at hready ⊢
    -- `complete` sets status and time together
    · rcases ready_cases_of_moves hmoves hready with ⟨x, now, millis, -, -, heq⟩ | heq
      · rw [heq]
        rfl
      · rw [heq] at hready ⊢
        exact h m₀ (.inl hm₀) hready
    · exact h m₀ (.inl hm₀) hready

/-- A start that succeeds has written the journal. -/
theorem stored_of_restart {now : Timestamp}
    (hstep : s.step cfg sha256 (.restart now .ok) = some s') :
    s'.journal = some s'.state.journal := by
  simp only [step, Persist.result] at hstep
  split_ifs at hstep
  obtain rfl := Option.some.inj hstep
  rfl

/-- A step of a job writes the journal when it changes a manifest or has published it, `complete`
apart. -/
theorem stored_of_job {p q : JobPhase} {f : RecordingManifest → RecordingManifest}
    (hok : persists e) (hstep : s.step cfg sha256 e = some s')
    (hjob : JobStep cfg sha256 s e id p q f s') :
    s'.journal = some s'.state.journal ∨
      (s'.state = s.state ∧ s'.journal = s.journal ∧ (p = .completed → s.state.get id = none)) ∨
      q = .completed ∧ s'.journal = s.journal := by
  obtain ⟨kind, hwas, hmoves, -⟩ := hjob.moves
  -- most steps leave the manifests alone
  have hsame : f = (fun m => m) → p ≠ .completed → s'.journal = some s'.state.journal ∨
      (s'.state = s.state ∧ s'.journal = s.journal ∧ (p = .completed → s.state.get id = none)) ∨
      q = .completed ∧ s'.journal = s.journal := by
    -- these steps write nothing, or the whole state
    rintro rfl hp
    rcases hjob.journal with heq | heq
    · exact .inr (.inl ⟨hjob.state.trans (update_fun_id _ _), heq, fun hq => absurd hq hp⟩)
    · exact .inl heq
  generalize s'.directory = d' at hmoves
  cases hmoves with
  -- `complete` changes the manifest and leaves the journal to the next step
  | complete => exact hjob.journal.symm.imp_right fun heq => .inr ⟨rfl, heq⟩
  | begin | beginFailed | recordReady | recordFailed =>
    -- the manifest is not there, or the journal is written
    obtain rfl := hok
    simp only [step, jobOf, hwas, advance, Persist.result] at hstep
    split at hstep <;> obtain rfl := Option.some.inj hstep
    · rename_i hnone
      exact .inr (.inl ⟨rfl, rfl, fun _ => hnone⟩)
    · exact .inl rfl
  -- a timeout is only possible where the manifest is not touched
  | timeout _ hp =>
    refine hsame rfl ?_
    rcases hp with rfl | ⟨_, rfl⟩ | ⟨_, rfl⟩ | ⟨_, rfl⟩ <;> rintro ⟨⟩
  | _ =>
    refine hsame rfl ?_
    rintro ⟨⟩

/-- Memory and journal agree about every recording that is not just completed. -/
theorem synced_step (h : s.Synced) (hreg : s.Registered) (hok : persists e)
    (hstep : s.step cfg sha256 e = some s') : s'.Synced := by
  have h' := registered_step hreg hstep
  -- a journal that has just been written agrees
  have hstored : s'.journal = some s'.state.journal → s'.Synced := by
    intro heq _ x
    rw [heq, State.loadState_journal h'.state.consistent]
    exact .inl rfl
  cases step_cases hstep with
  | idle hidle =>
    intro hrunning x
    rw [hidle.journal, hidle.state, phase, hidle.jobs]
    exact h (hidle.running ▸ hrunning) x
  -- admissions are persisted
  | @admitted _ _ _ _ _ persist _ hreq hadm =>
    have hpersist : persist = .ok := by
      cases hreq <;> exact hok
    exact hstored (hadm.written hpersist)
  | @spawn x kind hlookup =>
    intro hrunning y
    refine (h hrunning y).imp_right fun hdone => ⟨?_, hdone.2⟩
    have hphase := hdone.1
    have hne : y ≠ x := by
      -- a recording without a job is not completed
      rintro rfl
      rw [phase, (hreg.waiting _ (Keyed.mem_of_lookup hlookup).1).1] at hphase
      cases hphase
    exact (congrArg (Option.map Job.phase) (Function.update_of_ne hne _ _)).trans hphase
  | acknowledge hwas hack =>
    cases hack with
    | refused => exact h
    | removed => exact h
    -- so are releases
    | released _ _ _ hjournal => exact hstored (hjournal hok)
  | crash => rintro ⟨⟩
  | restart =>
    obtain rfl := hok
    exact hstored (stored_of_restart hstep)
  | @job _ x p q f _ hjob =>
    obtain ⟨kind, -, hmoves, -⟩ := hjob.moves
    have hf := fun m => (request_of_moves hmoves m).1
    obtain ⟨hp, hphase⟩ := hjob.phase_eq
    -- by what the job has written
    rcases stored_of_job hok hstep hjob with heq | ⟨hstate, hjournal, hgone⟩ | ⟨rfl, hjournal⟩
    · exact hstored heq
    -- nothing has changed, so the completed ones are those of before
    · intro hrunning y
      rw [hjournal, hstate, hphase]
      refine (h (hjob.running ▸ hrunning) y).imp_right fun hdone => ⟨?_, hdone.2⟩
      have hy := hdone.1
      have hne : y ≠ x := by
        rintro rfl
        exact hdone.2 (hgone (Option.some.inj (hp.symm.trans hy)))
      rw [Function.update_of_ne hne, hy]
    · -- `complete` is the step that the journal does not follow
      intro hrunning y
      rw [hjournal, hjob.state, hphase]
      by_cases heq : y = x
      · subst heq
        rw [State.get_update_self hf, Function.update_self]
        cases hget : s.state.get y with
        | some m => exact .inr ⟨rfl, Option.some_ne_none _⟩
        | none =>
          refine .inl ?_
          rcases h (hjob.running ▸ hrunning) y with hy | ⟨-, hy⟩
          · rw [hy, hget, Option.map_none]
          · exact absurd hget hy
      · rw [State.get_update_of_ne hf heq, Function.update_of_ne heq]
        exact h (hjob.running ▸ hrunning) y

/-- Every step keeps the bridge in order. -/
theorem orderly_step (hcfg : cfg.Bounded) (h : s.Orderly cfg sha256) (hok : persists e)
    (hstep : s.step cfg sha256 e = some s') : s'.Orderly cfg sha256 where
  toDescribed := described_step hcfg h.toDescribed hstep
  durable := durable_step h.durable hok hstep
  synced := synced_step h.synced h.toRegistered hok hstep
  dated := dated_step h.dated h.toCoherent hstep

/-- **The invariant of runs in which the journal can be written.** -/
theorem orderly_run {events : List Event} (hcfg : cfg.Bounded) (h : s.Orderly cfg sha256)
    (hok : ∀ e ∈ events, persists e)
    (hrun : EventSystem.run (step cfg sha256) s events = some s') : s'.Orderly cfg sha256 := by
  have hsteps : EventSystem.Steps (step cfg sha256) (fun _ e => persists e) s events :=
    .of_forall fun e he _ => hok e he
  exact EventSystem.run_invariant (Orderly cfg sha256)
    (fun _ _ _ ht he hstep => orderly_step hcfg ht he hstep) h hsteps hrun

/-! ### One recording -/

/-- The process does not crash while a recording is published in memory and not in the journal. -/
def Timely (s : Manager) : Event → Prop
  | .crash => ∀ id, s.phase id ≠ some .completed
  | _ => True

/-- What a step does to what is known of a recording. -/
inductive Turns (s : Manager) (e : Event) (id : Uuid) :
    Option RecordingManifest → Option RecordingManifest → Prop
  | stays {found} : Turns s e id found found
  | created {m} : id ∉ s.used → Turns s e id none (some m)
  | moves {m m'} : m.isActive = true → m'.request = m.request → Turns s e id (some m) (some m')
  | lost {m m'} : m.status = .ready →
      (∀ format bytes, (SpoolFile.media id format, bytes) ∉ s.directory) →
      m'.status = .failed → m'.request = m.request → Turns s e id (some m) (some m')
  | released {m now faults} : e = .acknowledge id now faults → m.isActive = false →
      Turns s e id (some m) none

/-- Recovery, for one manifest. -/
theorem turns_recoverManifest (hnames : Keyed.Distinct Prod.fst s.directory)
    (hsingle : s.directory.Single) {m : RecordingManifest} (hid : m.recordingId = id)
    (now : Timestamp) :
    Turns s e id (some m) (some (recoverManifest sha256 s.directory now m)) := by
  obtain ⟨-, hrequest⟩ := @recoverManifest_request sha256 s.directory now m
  -- an active recording is interrupted, a lost one is marked, any other one stays
  cases hactive : m.isActive with
  | true => exact .moves hactive hrequest
  | false =>
    by_cases hlost : m.status = .ready ∧ s.directory.isFile (mediaPath s.directory m) = false
    · refine .lost hlost.1 ?_ (recoverManifest_missing hlost.1 hlost.2).1 hrequest
      -- a media file is one that `media_path` finds
      intro format bytes hmem
      rw [← hid] at hmem
      have hpath := mediaPath_of_mem hnames hsingle hmem
      have hfile := (Directory.isFile_iff hnames).mpr ⟨bytes, hmem⟩
      rw [hpath, hfile] at hlost
      exact nomatch hlost.2
    -- its media are there, so recovery leaves it alone
    · have hkept : recoverManifest sha256 s.directory now m = m := by
        unfold recoverManifest
        rw [hactive]
        exact if_neg hlost
      rw [hkept]
      exact .stays

theorem Registered.running_of_job (h : s.Registered) (hjob : s.jobs id ≠ none) :
    s.running = true := by
  by_contra hstopped
  rw [Bool.not_eq_true] at hstopped
  exact hjob ((h.stopped hstopped).2.1 id)

/-- A step of a job is a turn of its own recording. -/
theorem turns_job {x : Uuid} {p q : JobPhase} {f : RecordingManifest → RecordingManifest}
    (h : s.Registered) (hjob : JobStep cfg sha256 s e x p q f s') :
    Turns s e id (s.known.get id) (s'.known.get id) := by
  -- the job runs, so the bridge does
  obtain ⟨kind, hwas, hmoves, -⟩ := hjob.moves
  have hf := request_of_moves hmoves
  have hrunning : s.running = true := h.running_of_job (hwas ▸ Option.some_ne_none _)
  rw [known_of_running hrunning, known_of_running (hjob.running.trans hrunning), hjob.state]
  by_cases heq : id = x
  · subst heq
    rw [State.get_update_self fun m => (hf m).1]
    cases hbusy : p.busy with
    | true =>
      obtain ⟨m, hm, hactive⟩ := (h.busy id p hjob.phase_eq.1 hbusy).1
      rw [hm]
      exact .moves hactive (hf m).2
    | false =>
      -- only the end of `record` after `complete` is left, which writes what is there
      obtain ⟨rfl, rfl⟩ := completed_of_moves hmoves hbusy
      rw [Option.map_id']
      exact .stays
  -- other recordings are left alone
  · rw [State.get_update_of_ne (fun m => (hf m).1) heq]
    exact .stays

/-- **What a step does to what is known of a recording.** -/
theorem turns_step (h : s.Orderly cfg sha256) (htimely : Timely s e)
    (hstep : s.step cfg sha256 e = some s') :
    Turns s e id (s.known.get id) (s'.known.get id) := by
  -- by the step
  cases step_cases hstep with
  | idle hidle =>
    rw [hidle.known]
    exact .stays
  | @admitted _ _ m _ _ _ _ _ hadm =>
    rw [known_of_running hadm.wasRunning, known_of_running hadm.running, hadm.state]
    -- the recording that is admitted, or another one
    by_cases heq : id = m.recordingId
    · subst heq
      have hnone : s.state.get m.recordingId = none :=
        State.get_eq_none.mpr fun hmem => hadm.fresh (h.state.issued _ hmem)
      rw [hnone, State.get_enter_self]
      exact .created hadm.fresh
    · rw [State.get_enter_of_ne heq]
      exact .stays
  | spawn => exact .stays
  | @acknowledge x now faults _ hrunning hack =>
    cases hack with
    | refused => exact .stays
    | removed => exact .stays
    -- the key is released and the manifest removed
    | released hget hinactive =>
      change Turns s _ id (s.known.get id)
        ((if s.running then s.state.release x now else loadState _).get id)
      rw [known_of_running hrunning, if_pos hrunning]
      by_cases heq : id = x
      · subst heq
        rw [hget, State.get_release_self]
        exact .released rfl hinactive
      · rw [State.get_release_of_ne heq]
        exact .stays
  -- what is known goes over from the memory to the journal
  | crash =>
    change Turns s _ id (s.known.get id) ((loadState s.journal).get id)
    cases hrunning : s.running with
    | false =>
      rw [known_of_stopped hrunning]
      exact .stays
    | true =>
      rw [known_of_running hrunning]
      -- they agree, unless the step is untimely
      rcases h.synced hrunning id with heq | ⟨hphase, -⟩
      · rw [heq]
        exact .stays
      · exact absurd hphase (htimely id)
  | @restart now persist _ hres =>
    rw [known_of_stopped hres.stopped]
    -- each recording is recovered by itself
    have hrecovered : Turns s (.restart now persist) id ((loadState s.journal).get id)
        ((recover sha256 s.directory now (loadState s.journal)).2.get id) := by
      rw [get_recover]
      cases hget : (loadState s.journal).get id with
      | none => exact .stays
      | some m => exact turns_recoverManifest h.names h.single (State.mem_of_get hget).2 now
    -- the start has ended well, or it has failed
    cases hrunning : s'.running with
    | true =>
      rw [known_of_running hrunning]
      rcases hres.state with ⟨-, heq⟩ | ⟨hstopped, -⟩
      · rw [heq]
        exact hrecovered
      · exact nomatch hrunning.symm.trans hstopped
    | false =>
      rw [known_of_stopped hrunning]
      rcases hres.journal with heq | heq <;> rw [heq]
      · exact .stays
      · rw [State.loadState_journal (sound_recover h.journal s.directory now).consistent]
        exact hrecovered
  | job hjob => exact turns_job h.toRegistered hjob

/-- Media of a recording that is not active are there until it is acknowledged. -/
theorem media_step {m : RecordingManifest} {format : RecordingFormat} {bytes : Bytes}
    (hcfg : cfg.Bounded) (h : s.Orderly cfg sha256) (hget : s.known.get id = some m)
    (hinactive : m.isActive = false) (hmem : (SpoolFile.media id format, bytes) ∈ s.directory)
    (hstep : s.step cfg sha256 e = some s') :
    (SpoolFile.media id format, bytes) ∈ s'.directory ∨
      ∃ now faults, e = .acknowledge id now faults := by
  cases step_cases hstep with
  | idle hidle => exact .inl (hidle.directory ▸ hmem)
  | admitted _ hadm => exact .inl (hadm.directory ▸ hmem)
  | spawn => exact .inl hmem
  | @acknowledge x now faults _ _ hack =>
    -- its own acknowledgement is the second case
    by_cases heq : id = x
    · exact .inr ⟨now, faults, heq ▸ rfl⟩
    · refine .inl ?_
      -- another recording's media go
      have hkept : ∀ {m' : RecordingManifest}, s.state.get x = some m' →
          (SpoolFile.media id format, bytes) ∈ withoutMedia s.directory m' := by
        intro m' hm'
        have hothers := others_withoutMedia s.directory m'
        refine mem_of_others hothers.symm hmem ?_
        exact (State.mem_of_get hm').2 ▸ heq
      cases hack with
      | refused => exact hmem
      | removed hm' => exact hkept hm'
      | released hm' => exact hkept hm'
  | crash => exact .inl hmem
  -- a start removes partial files only
  | restart hres =>
    rw [hres.directory]
    exact .inl (List.mem_filter.mpr ⟨hmem, rfl⟩)
  | @job _ x p q f _ hjob =>
    obtain ⟨kind, hwas, hmoves, -⟩ := hjob.moves
    obtain ⟨hp, -⟩ := hjob.phase_eq
    -- the files of other recordings are left alone by a job
    obtain ⟨hothers, -⟩ := files_of_moves hcfg hmoves (h.files x p hp)
    refine .inl ?_
    by_cases heq : id = x
    · subst heq
      cases hbusy : p.busy with
      | true =>
        -- a job that is at work has an active recording
        obtain ⟨m', hm', hactive⟩ := (h.busy id p hp hbusy).1
        rw [known_of_running (h.running_of_job (hwas ▸ Option.some_ne_none _))] at hget
        obtain rfl := Option.some.inj (hget.symm.trans hm')
        exact nomatch hactive.symm.trans hinactive
      -- a job that is over changes no file
      | false =>
        have hq : q.busy = false := by
          by_contra hq
          rw [Bool.not_eq_false] at hq
          exact nomatch (busy_of_moves hmoves hq).1.symm.trans hbusy
        rw [directory_of_moves hmoves hq]
        exact hmem
    · exact mem_of_others hothers.symm hmem heq

/-- A recording that becomes `ready` has its media. -/
theorem media_of_ready {m' : RecordingManifest} (h : s.Orderly cfg sha256) (htimely : Timely s e)
    (hstep : s.step cfg sha256 e = some s') (hget : s'.known.get id = some m')
    (hready : m'.status = .ready) :
    s.known.get id = some m' ∨
      ∃ format bytes, (SpoolFile.media id format, bytes) ∈ s'.directory := by
  -- by the step; only `complete` and the recovery make a recording ready
  cases step_cases hstep with
  | idle hidle => exact .inl (hidle.known ▸ hget)
  | @admitted _ _ m _ _ _ _ _ hadm =>
    rw [known_of_running hadm.running, hadm.state] at hget
    rw [known_of_running hadm.wasRunning]
    -- an admitted recording is pending
    by_cases heq : id = m.recordingId
    · subst heq
      obtain rfl := Option.some.inj (State.get_enter_self.symm.trans hget)
      exact nomatch hadm.pending.symm.trans hready
    · exact .inl (State.get_enter_of_ne heq ▸ hget)
  | spawn => exact .inl hget
  | @acknowledge x now faults _ hrunning hack =>
    cases hack with
    | refused => exact .inl hget
    | removed => exact .inl hget
    | released =>
      change (if s.running then s.state.release x now else loadState _).get id = some m' at hget
      rw [if_pos hrunning] at hget
      rw [known_of_running hrunning]
      by_cases heq : id = x
      · subst heq
        exact nomatch State.get_release_self.symm.trans hget
      · exact .inl (State.get_release_of_ne heq ▸ hget)
  -- the journal knows what the memory did
  | crash =>
    change (loadState s.journal).get id = some m' at hget
    cases hrunning : s.running with
    | false => exact .inl (known_of_stopped hrunning ▸ hget)
    | true =>
      rcases h.synced hrunning id with heq | ⟨hphase, -⟩
      · rw [known_of_running hrunning, ← heq]
        exact .inl hget
      · exact absurd hphase (htimely id)
  | @restart now _ _ hres =>
    rw [known_of_stopped hres.stopped]
    -- recovery leaves a recording ready only with its media
    have hrecovered :
        (recover sha256 s.directory now (loadState s.journal)).2.get id = some m' →
          ∃ format bytes, (SpoolFile.media id format, bytes) ∈ s'.directory := by
      intro hm'
      rw [get_recover, Option.map_eq_some_iff] at hm'
      obtain ⟨m, hm, rfl⟩ := hm'
      obtain ⟨format, bytes, hmem⟩ := exists_of_recovered_ready h.names hready
      rw [(State.mem_of_get hm).2] at hmem
      rw [hres.directory]
      exact ⟨format, bytes, List.mem_filter.mpr ⟨hmem, rfl⟩⟩
    cases hrunning : s'.running with
    | true =>
      rw [known_of_running hrunning] at hget
      rcases hres.state with ⟨-, heq⟩ | ⟨hstopped, -⟩
      · exact .inr (hrecovered (heq ▸ hget))
      · exact nomatch hrunning.symm.trans hstopped
    -- a start that fails leaves the journal
    | false =>
      rw [known_of_stopped hrunning] at hget
      rcases hres.journal with heq | heq <;> rw [heq] at hget
      · exact .inl hget
      · rw [State.loadState_journal (sound_recover h.journal s.directory now).consistent] at hget
        exact .inr (hrecovered hget)
  | @job _ x p q f _ hjob =>
    obtain ⟨kind, hwas, hmoves, -⟩ := hjob.moves
    have hf := fun m => (request_of_moves hmoves m).1
    have hrunning := h.running_of_job (hwas ▸ Option.some_ne_none _)
    rw [known_of_running (hjob.running.trans hrunning), hjob.state] at hget
    rw [known_of_running hrunning]
    -- the recording of the job, or another one
    by_cases heq : id = x
    · subst heq
      rw [State.get_update_self hf, Option.map_eq_some_iff] at hget
      obtain ⟨m, hm, rfl⟩ := hget
      rcases ready_cases_of_moves hmoves hready with ⟨x, now, millis, rfl, hd, -⟩ | hsame
      · -- `complete` publishes the file of its job
        obtain ⟨hfiles, -⟩ := h.files id _ hjob.phase_eq.1
        refine .inr ⟨x.format, x.digest, ?_⟩
        rw [hd]
        exact (Directory.mem_filesOf.mp (hfiles ▸ List.mem_singleton_self _)).1
      · exact .inl (hsame.symm ▸ hm)
    · exact .inl (State.get_update_of_ne hf heq ▸ hget)

/-! ### Recordings that are gone -/

/-- The recording was there, and is in neither memory nor journal. -/
structure Dropped (s : Manager) (id : Uuid) : Prop where
  issued : id ∈ s.used
  state : s.state.get id = none
  journal : (loadState s.journal).get id = none

/-- What is not in memory is not in the journal either. -/
def Attuned (s : Manager) : Prop :=
  s.running = true → ∀ id, s.state.get id = none → (loadState s.journal).get id = none

/-- An acknowledgement writes the journal. -/
def acksPersist : Event → Prop
  | .acknowledge _ _ faults => faults.persist = .ok
  | _ => True

/-- A step that leaves the journal alone or writes the new state to it. -/
theorem Dropped.of_state (h : s.Dropped id) (hcoherent : s'.Coherent) (hused : s.used ⊆ s'.used)
    (hjournal : s'.journal = s.journal ∨ s'.journal = some s'.state.journal)
    (hstate : s'.state.get id = none) : s'.Dropped id := by
  refine ⟨hused h.issued, hstate, ?_⟩
  rcases loadState_cases hcoherent.state hjournal with heq | heq <;> rw [heq]
  · exact h.journal
  · exact hstate

/-- Updating brings nothing back. -/
theorem get_update_eq_none {state : State} {x : Uuid} {f : RecordingManifest → RecordingManifest}
    (hf : ∀ m, (f m).recordingId = m.recordingId) :
    (state.update x f).get id = none ↔ state.get id = none := by
  by_cases heq : id = x
  · subst heq
    rw [State.get_update_self hf, Option.map_eq_none_iff]
  · rw [State.get_update_of_ne hf heq]

theorem get_recover_eq_none {d : Directory} {now : Timestamp} {state : State} :
    (recover sha256 d now state).2.get id = none ↔ state.get id = none := by
  rw [get_recover, Option.map_eq_none_iff]

/-- A recording that is gone stays away. -/
theorem dropped_step (hcoherent : s.Coherent) (h : s.Dropped id)
    (hstep : s.step cfg sha256 e = some s') : s'.Dropped id := by
  have h' := coherent_step hcoherent hstep
  have hused := used_step hstep
  cases step_cases hstep with
  | idle hidle =>
    exact ⟨hused h.issued, hidle.state ▸ h.state, hidle.journal ▸ h.journal⟩
  | admitted _ hadm =>
    refine h.of_state h' hused hadm.journal ?_
    -- the new recording has a new id
    rw [hadm.state, State.get_enter_of_ne fun heq => hadm.fresh (heq ▸ h.issued)]
    exact h.state
  | spawn => exact ⟨h.issued, h.state, h.journal⟩
  -- a release takes away, and brings nothing back
  | @acknowledge x now _ _ _ hack =>
    cases hack with
    | refused => exact h
    | removed => exact ⟨h.issued, h.state, h.journal⟩
    | released _ _ hjournal =>
      refine h.of_state h' hused hjournal ?_
      by_cases heq : id = x
      · exact heq ▸ State.get_release_self
      · exact (State.get_release_of_ne heq).trans h.state
  | crash => exact ⟨h.issued, rfl, h.journal⟩
  -- the journal does not know the recording, so recovery does not
  | @restart now _ _ hres =>
    have hrecovered := (@get_recover_eq_none sha256 id s.directory now _).mpr h.journal
    refine ⟨hused h.issued, ?_, ?_⟩
    · rcases hres.state with ⟨-, heq⟩ | ⟨-, heq⟩ <;> rw [heq]
      · exact hrecovered
      · rfl
    · rcases hres.journal with heq | heq <;> rw [heq]
      · exact h.journal
      · rw [State.loadState_journal (sound_recover hcoherent.journal s.directory now).consistent]
        exact hrecovered
  -- a job updates, and creates nothing
  | job hjob =>
    obtain ⟨kind, -, hmoves, -⟩ := hjob.moves
    refine h.of_state h' hused hjob.journal ?_
    rw [hjob.state, get_update_eq_none fun m => (request_of_moves hmoves m).1]
    exact h.state

/-- What the memory does not know, the journal does not know either. -/
theorem attuned_step (hcoherent : s.Coherent) (h : s.Attuned) (hok : acksPersist e)
    (hstep : s.step cfg sha256 e = some s') : s'.Attuned := by
  have h' := coherent_step hcoherent hstep
  -- the journal follows the memory, or is as it was
  have hfollows : (s'.journal = s.journal ∨ s'.journal = some s'.state.journal) →
      (s'.running = true → s.running = true) →
      (∀ id, s'.state.get id = none → s.state.get id = none) → s'.Attuned := by
    intro hjournal hwas hsub hrunning id hnone
    rcases loadState_cases h'.state hjournal with heq | heq <;> rw [heq]
    · exact h (hwas hrunning) id (hsub id hnone)
    · exact hnone
  cases step_cases hstep with
  -- by the step; only a release takes a recording away
  | idle hidle =>
    exact hfollows (.inl hidle.journal) (hidle.running ▸ fun hr => hr) fun x hx => hidle.state ▸ hx
  | @admitted _ _ m _ _ _ _ _ hadm =>
    refine hfollows hadm.journal (fun _ => hadm.wasRunning) fun x hx => ?_
    rw [hadm.state] at hx
    by_cases heq : x = m.recordingId
    · subst heq
      exact nomatch State.get_enter_self.symm.trans hx
    · exact (State.get_enter_of_ne heq).symm.trans hx
  | spawn => exact h
  -- the release is persisted, by the condition
  | acknowledge _ hack =>
    cases hack with
    | refused => exact h
    | removed => exact h
    | released _ _ _ hjournal =>
      intro _ x hx
      dsimp only at hx ⊢
      rw [hjournal hok, State.loadState_journal h'.state.consistent]
      exact hx
  | crash => exact fun hrunning => nomatch hrunning
  -- after a start the memory is what was recovered
  | @restart now _ _ hres =>
    intro hrunning x hx
    rcases hres.state with ⟨-, heq⟩ | ⟨hstopped, -⟩
    · rw [heq, get_recover_eq_none] at hx
      rcases hres.journal with heq | heq <;> rw [heq]
      · exact hx
      · rw [State.loadState_journal (sound_recover hcoherent.journal s.directory now).consistent,
          get_recover_eq_none]
        exact hx
    · exact nomatch hrunning.symm.trans hstopped
  | job hjob =>
    obtain ⟨kind, -, hmoves, -⟩ := hjob.moves
    refine hfollows hjob.journal (hjob.running ▸ fun hr => hr) fun x hx => ?_
    rw [hjob.state, get_update_eq_none fun m => (request_of_moves hmoves m).1] at hx
    exact hx

/-! ### One key -/

/-- A tombstone of the recording keeps the key, and at most `n` later ones follow it. -/
def Buried (acks : List AckTombstone) (key : String) (id : Uuid) (n : ℕ) : Prop :=
  ∃ before t after, acks = before ++ t :: after ∧ t.idempotencyKey = some key ∧
    t.recordingId = id ∧ after.length ≤ n

/-- The key belongs to the recording, or to a tombstone of it that at most `n` later ones follow. -/
def Owned (state : State) (key : String) (id : Uuid) (n : ℕ) : Prop :=
  (key, id) ∈ state.idempotency ∨ Buried state.acknowledgements key id n

theorem Buried.mono {acks : List AckTombstone} {key : String} {n n' : ℕ}
    (h : Buried acks key id n) (hn : n ≤ n') : Buried acks key id n' := by
  obtain ⟨before, t, after, heq, hkey, hid, hlength⟩ := h
  exact ⟨before, t, after, heq, hkey, hid, hlength.trans hn⟩

theorem Owned.mono {state : State} {key : String} {n n' : ℕ} (h : Owned state key id n)
    (hn : n ≤ n') : Owned state key id n' :=
  h.imp_right fun hburied => hburied.mono hn

theorem Owned.holds {state : State} {key : String} {n : ℕ} (h : Owned state key id n) :
    state.Holds key := by
  rcases h with hmem | ⟨before, t, after, heq, hkey, -, -⟩
  · exact .inl ⟨_, hmem, rfl⟩
  · exact .inr ⟨t, heq ▸ List.mem_append_right _ List.mem_cons_self, hkey⟩

/-- One more tombstone pushes none out that fewer than 4095 follow. -/
theorem Buried.push {acks : List AckTombstone} {key : String} {n : ℕ} (h : Buried acks key id n)
    (hn : n + 1 < maxAckTombstones) (t' : AckTombstone) :
    Buried (pushTombstone acks t') key id (n + 1) := by
  -- how many of the oldest tombstones are pushed out
  obtain ⟨before, t, after, rfl, hkey, hid, hlength⟩ := h
  have hdrop : before.length + 1 + after.length + 1 - maxAckTombstones ≤ before.length := by omega
  refine ⟨before.drop (before.length + 1 + after.length + 1 - maxAckTombstones), t, after ++ [t'],
    ?_, hkey, hid, ?_⟩
  · have hall : before ++ t :: after ++ [t'] = before ++ t :: (after ++ [t']) := by
      rw [List.append_assoc, List.cons_append]
    have hlen : (before ++ t :: (after ++ [t'])).length =
        before.length + 1 + after.length + 1 := by
      simp only [List.length_append, List.length_cons, List.length_nil]
      omega
    rw [pushTombstone, hall, hlen, List.drop_append_of_le_length hdrop]
  · rw [List.length_append, List.length_singleton]
    omega

/-- The newest tombstone is there. -/
theorem buried_push {acks : List AckTombstone} {key : String} (now : Timestamp) :
    Buried (pushTombstone acks ⟨id, some key, now⟩) key id 0 := by
  refine ⟨acks.drop (acks.length + 1 - maxAckTombstones), ⟨id, some key, now⟩, [], ?_, rfl, rfl,
    le_rfl⟩
  have hdrop : acks.length + 1 - maxAckTombstones ≤ acks.length := by
    rw [maxAckTombstones]
    omega
  rw [pushTombstone, List.length_append, List.length_singleton,
    List.drop_append_of_le_length hdrop]

/-- The key of a recording, as `acknowledge` looks it up. -/
theorem keyOf_of_mem {state : State} {key : String} (h : state.Consistent)
    (hmem : (key, id) ∈ state.idempotency) : state.keyOf id = some key := by
  cases hkey : state.keyOf id with
  | none =>
    rw [State.keyOf, Option.map_eq_none_iff, List.find?_eq_none] at hkey
    exact absurd (decide_eq_true rfl) (hkey _ hmem)
  | some key' =>
    have heq := Keyed.eq_of_mem h.once hmem (State.mem_of_keyOf hkey) rfl
    exact congrArg some (congrArg Prod.fst heq).symm

/-- An acknowledgement moves the key into the tombstone; those of others count. -/
theorem Owned.release {state : State} {key : String} {n : ℕ} (h : Owned state key id n)
    (hc : state.Consistent) {x : Uuid} (hx : x ∈ state.ids) (now : Timestamp)
    (hn : x ≠ id → n + 1 < maxAckTombstones) :
    Owned (state.release x now) key id (if x = id then n else n + 1) := by
  rw [Owned, State.release_acknowledgements]
  by_cases heq : x = id
  · subst heq
    rw [if_pos rfl]
    -- the key was in the map, or it has been in a tombstone already
    rcases h with hmem | ⟨before, t, after, hacks, -, hid, -⟩
    · rw [keyOf_of_mem hc hmem]
      exact .inr ((buried_push now).mono (Nat.zero_le _))
    · -- a recording that is there has no tombstone
      have hmem : t ∈ state.acknowledgements := hacks ▸ List.mem_append_right _ List.mem_cons_self
      exact absurd (hid ▸ hx) (hc.retired t hmem)
  -- the recording of another id is released
  · rw [if_neg heq]
    rcases h with hmem | hburied
    · exact .inl (List.mem_filter.mpr ⟨hmem, decide_eq_true (Ne.symm heq)⟩)
    · exact .inr (hburied.push (hn heq) _)

/-- The event acknowledges a recording and removes it. -/
def releases (s : Manager) : Event → Bool
  | .acknowledge id _ _ => s.running && (s.state.get id).any fun m => !m.isActive
  | _ => false

/-- What a step does to the keys and tombstones that are known. -/
inductive Rekeys (cfg : Config) (s : Manager) (e : Event) (s' : Manager) : Prop
  | same : s'.known.idempotency = s.known.idempotency →
      s'.known.acknowledgements = s.known.acknowledgements → Rekeys cfg s e s'
  | admitted {key m kind scan persist} : Requests e key m kind scan persist →
      Admitted cfg s key m kind scan persist s' → s'.known = s.known.enter key m → Rekeys cfg s e s'
  | released {x now faults} : e = .acknowledge x now faults → s.releases e = true →
      x ∈ s.known.ids → s'.known = s.known.release x now → Rekeys cfg s e s'

/-- What a step does to the keys and tombstones that are known. -/
theorem rekeys_step (h : s.Orderly cfg sha256) (hstep : s.step cfg sha256 e = some s') :
    Rekeys cfg s e s' := by
  cases step_cases hstep with
  | idle hidle => exact .same (hidle.known ▸ rfl) (hidle.known ▸ rfl)
  | admitted hreq hadm =>
    refine .admitted hreq hadm ?_
    rw [known_of_running hadm.wasRunning, known_of_running hadm.running, hadm.state]
  | spawn => exact .same rfl rfl
  | @acknowledge x now faults _ hrunning hack =>
    cases hack with
    | refused => exact .same rfl rfl
    | removed => exact .same rfl rfl
    -- the release moves the key
    | released hget hinactive =>
      have hx : x ∈ s.state.ids := State.get_isSome.mp (hget ▸ rfl)
      refine .released rfl ?_ (known_of_running hrunning ▸ hx) ?_
      · simp [releases, hrunning, hget, hinactive]
      rw [known_of_running hrunning]
      exact if_pos hrunning
  | crash =>
    -- the journal has the keys and the tombstones of the memory
    cases hrunning : s.running with
    | false =>
      have heq := known_of_stopped hrunning
      exact .same (heq ▸ rfl) (heq ▸ rfl)
    | true =>
      obtain ⟨hkeys, hacks⟩ := h.durable hrunning
      refine .same ?_ ?_
      · exact hkeys.trans (known_of_running hrunning ▸ rfl)
      · exact hacks.trans (known_of_running hrunning ▸ rfl)
  | @restart now persist _ hres =>
    -- recovery changes manifests only
    have hknown : s'.known = loadState s.journal ∨
        s'.known = (recover sha256 s.directory now (loadState s.journal)).2 := by
      cases hrunning : s'.running with
      | true =>
        rw [known_of_running hrunning]
        rcases hres.state with ⟨-, heq⟩ | ⟨hstopped, -⟩
        · exact .inr heq
        · exact nomatch hrunning.symm.trans hstopped
      | false =>
        rw [known_of_stopped hrunning]
        rcases hres.journal with heq | heq <;> rw [heq]
        · exact .inl rfl
        · exact .inr (State.loadState_journal
            (sound_recover h.journal s.directory now).consistent)
    rcases hknown with heq | heq
    · refine .same ?_ ?_ <;> rw [heq, known_of_stopped hres.stopped]
    · refine .same ?_ ?_ <;> rw [heq, known_of_stopped hres.stopped] <;> rfl
  | job hjob =>
    obtain ⟨kind, hwas, -, -⟩ := hjob.moves
    have hrunning := h.running_of_job (hwas ▸ Option.some_ne_none _)
    refine .same ?_ ?_
    all_goals
      rw [known_of_running hrunning, known_of_running (hjob.running.trans hrunning), hjob.state]
      rfl

/-- **A recording that is in neither does not come back (`dropped_step`), and where every
acknowledgement writes the journal, one that is not in memory is in neither (`Attuned`).

A key that was given out stays with its recording**, while fewer than 4096 others are
acknowledged. -/
theorem owned_step {key : String} {n n' : ℕ} (h : s.Orderly cfg sha256)
    (howned : Owned s.known key id n) (hle : n ≤ n')
    (hothers : ∀ x now faults, e = .acknowledge x now faults → x ≠ id → s.releases e = true →
      n + 1 ≤ n' ∧ n + 1 < maxAckTombstones)
    (hstep : s.step cfg sha256 e = some s') : Owned s'.known key id n' := by
  cases rekeys_step h hstep with
  | same hkeys hacks =>
    rw [Owned, hkeys, hacks]
    exact howned.mono hle
  | admitted _ hadm heq =>
    -- the key that is admitted is held by nobody, and this one is owned
    have hunheld := (admission_eq_none_iff.mp hadm.accepts).unheld
    rw [← known_of_running hadm.wasRunning] at hunheld
    rw [heq]
    refine (howned.mono hle).imp_left fun hmem => Keyed.mem_insert.mpr (.inl ⟨hmem, ?_⟩)
    -- the new key is another one
    rintro rfl
    exact hunheld howned.holds
  | released hack hreleases hx heq =>
    rw [heq]
    -- the tombstone of another recording counts, its own does not
    refine (howned.release h.known.consistent hx _ ?_).mono ?_
    · exact fun hne => (hothers _ _ _ hack hne hreleases).2
    · split_ifs with hid
      · exact hle
      · exact (hothers _ _ _ hack hid hreleases).1

/-- A key that nobody holds is held by nobody afterwards, or a recording was created under it. -/
theorem unheld_step {key : String} (h : s.Orderly cfg sha256) (hunheld : ¬ s.known.Holds key)
    (hstep : s.step cfg sha256 e = some s') :
    ¬ s'.known.Holds key ∨ ∃ m kind scan persist, Requests e key m kind scan persist ∧
      Admitted cfg s key m kind scan persist s' ∧ (key, m.recordingId) ∈ s'.known.idempotency := by
  -- a key is held by an admission, or it is not held
  cases rekeys_step h hstep with
  | same hkeys hacks =>
    rw [State.Holds, hkeys, hacks]
    exact .inl hunheld
  -- a recording was created under this key, or under another one
  | @admitted key' m kind scan persist hreq hadm heq =>
    by_cases hkey : key' = key
    · subst hkey
      refine .inr ⟨m, kind, scan, persist, hreq, hadm, ?_⟩
      rw [heq]
      exact Keyed.mem_insert.mpr (.inr rfl)
    · refine .inl ?_
      rw [heq]
      rintro (⟨entry, hentry, rfl⟩ | hburied)
      · rcases Keyed.mem_insert.mp hentry with ⟨hentry, -⟩ | rfl
        · exact hunheld (.inl ⟨entry, hentry, rfl⟩)
        · exact hkey rfl
      · exact hunheld (.inr hburied)
  -- a release moves a key, and so holds no new one
  | released hack _ _ heq =>
    refine .inl ?_
    rw [heq]
    rintro (⟨entry, hentry, rfl⟩ | ⟨t, ht, hkey⟩)
    · exact hunheld (.inl ⟨entry, (List.mem_filter.mp hentry).1, rfl⟩)
    · -- the new tombstone has the key of the recording
      rw [State.release_acknowledgements] at ht
      obtain ht | rfl := State.mem_pushTombstone ht
      · exact hunheld (.inr ⟨t, ht, hkey⟩)
      · exact hunheld (.inl ⟨_, State.mem_of_keyOf hkey, rfl⟩)

end Manager

end Recordings

end EzvizBridge
