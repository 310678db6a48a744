import EzvizBridge.Recordings.Idempotency

/-!
# Jobs and their manifests

A job works for a recording that is active, in memory and in the journal, until it has published or
failed it (`Registered`). So no request takes a recording away from its job, and a restart finds
every recording that was being written.

The converse, that every active recording has a job, is where a failed write of the journal does
damage: `enqueue` has stored the manifest by then, but does not spawn its job
(`refused_request_leaves_no_trace_iff`).
-/

namespace EzvizBridge

namespace Recordings

/-- The job has not yet published or failed its recording. -/
def JobPhase.busy : JobPhase → Bool
  | .completed | .finished => false
  | _ => true

namespace State

variable {self : State} {id id' : Uuid} {m : RecordingManifest}

/-- The recording is there, and it is active. -/
def Runs (self : State) (id : Uuid) : Prop := ∃ m, self.get id = some m ∧ m.isActive = true

/-- An update that keeps the ids applies to the recording it names. -/
theorem get_update_self {f : RecordingManifest → RecordingManifest}
    (hf : ∀ m, (f m).recordingId = m.recordingId) :
    (self.update id f).get id = (self.get id).map f :=
  Keyed.lookup_modify_self hf

theorem get_update_of_ne {f : RecordingManifest → RecordingManifest}
    (hf : ∀ m, (f m).recordingId = m.recordingId) (h : id' ≠ id) :
    (self.update id f).get id' = self.get id' :=
  Keyed.lookup_modify_of_ne hf h

theorem get_enter_self {key : String} : (self.enter key m).get m.recordingId = some m :=
  Keyed.lookup_insert_self

/-- Entering a recording leaves the others as they were. -/
theorem get_enter_of_ne {key : String} (h : id ≠ m.recordingId) :
    (self.enter key m).get id = self.get id :=
  Keyed.lookup_insert_of_ne h

/-- A released recording is no longer found. -/
theorem get_release_self {now : Timestamp} : (self.release id now).get id = none :=
  Keyed.lookup_remove_self

/-- Releasing a recording leaves the others as they were. -/
theorem get_release_of_ne {now : Timestamp} (h : id' ≠ id) :
    (self.release id now).get id' = self.get id' :=
  Keyed.lookup_remove_of_ne h

/-- Every manifest of a consistent state is found under its id. -/
theorem get_of_mem (h : self.Consistent) (hm : m ∈ self.manifests) :
    self.get m.recordingId = some m :=
  (Keyed.lookup_eq_some h.ids).mpr ⟨hm, rfl⟩

/-- A recording that is active has its id in the state. -/
theorem Runs.mem_ids (h : self.Runs id) : id ∈ self.ids := by
  obtain ⟨m, hm, -⟩ := h
  exact get_isSome.mp (hm ▸ rfl)

end State

/-- Recovery leaves no recording active. -/
theorem isActive_recoverManifest (sha256 : Sha256) (directory : Directory) (now : Timestamp)
    (m : RecordingManifest) : (recoverManifest sha256 directory now m).isActive = false := by
  unfold recoverManifest
  dsimp only
  split_ifs with hactive hmissing
  · split <;> rfl
  · rfl
  · simpa using hactive

namespace Manager

variable {cfg : Config} {sha256 : Sha256} {s s' : Manager} {id id' : Uuid}

/-- The recording is active, in memory and in the journal. -/
def Running (s : Manager) (id : Uuid) : Prop := s.state.Runs id ∧ (loadState s.journal).Runs id

/-- Memory, journal and jobs fit together. -/
structure Registered (s : Manager) : Prop extends s.Coherent where
  stopped : s.running = false → s.state = {} ∧ (∀ id, s.jobs id = none) ∧ s.spawning = []
  distinct : Keyed.Distinct Prod.fst s.spawning
  waiting : ∀ e ∈ s.spawning, s.jobs e.1 = none ∧ s.Running e.1
  busy : ∀ id p, s.phase id = some p → p.busy = true → s.Running id
  published : ∀ id, s.phase id = some .completed →
    ∀ m, s.state.get id = some m → m.status = .ready
  spawned : ∀ id, s.jobs id ≠ none → id ∈ s.used

/-- A manager that was just started has no jobs. -/
theorem registered_fresh (directory : Directory) : Registered { directory } where
  toCoherent := coherent_fresh directory
  stopped _ := ⟨rfl, fun _ => rfl, rfl⟩
  distinct := List.nodup_nil
  waiting _ h := nomatch h
  busy _ _ h := nomatch h
  published _ h := nomatch h
  spawned _ h := absurd rfl h

/-- A recording that stays active in memory stays active in the journal. -/
theorem Running.of_state (h : s.Running id) (hcoherent : s'.Coherent)
    (hjournal : s'.journal = s.journal ∨ s'.journal = some s'.state.journal)
    (hstate : s'.state.Runs id) : s'.Running id := by
  refine ⟨hstate, ?_⟩
  rcases loadState_cases hcoherent.state hjournal with heq | heq <;> rw [heq]
  · exact h.2
  · exact hstate

/-- The id of an active recording was given out. -/
theorem Registered.mem_used (h : s.Registered) (hrun : s.Running id) : id ∈ s.used :=
  h.state.issued id hrun.1.mem_ids

/-! ### Steps -/

/-- The admission of a request keeps the jobs registered: its id is fresh, so no job has it. -/
theorem registered_admitted {key : String} {m : RecordingManifest} {kind : JobKind}
    {scan : Except BridgeError Directory} {persist : Persist} (h : s.Registered)
    (hadm : Admitted cfg s key m kind scan persist s') : s'.Registered := by
  have h' : s'.Coherent := coherent_admitted h.toCoherent hadm
  -- the ids of active recordings were used before, the one of the request was not
  have hne : ∀ {id}, s.Running id → id ≠ m.recordingId :=
    fun hrun heq => hadm.fresh (heq ▸ h.mem_used hrun)
  have hkept : ∀ {id}, s.Running id → s'.Running id := by
    intro id hrun
    refine hrun.of_state h' hadm.journal ?_
    obtain ⟨m', hm', hactive⟩ := hrun.1
    exact ⟨m', by rw [hadm.state, State.get_enter_of_ne (hne hrun), hm'], hactive⟩
  have hphase : s'.phase = s.phase := by
    funext x
    rw [phase, phase, hadm.jobs]
  have hidle : s.jobs m.recordingId = none := by
    by_contra hjob
    exact hadm.fresh (h.spawned _ hjob)
  -- the new job waits to be spawned only if its journal was persisted
  have hspawning : ∀ e ∈ s'.spawning,
      e ∈ s.spawning ∨ persist = .ok ∧ e = (m.recordingId, kind) := by
    intro e he
    rw [hadm.spawning] at he
    split_ifs at he with hok
    · rw [List.mem_append, List.mem_singleton] at he
      exact he.imp_right fun heq => ⟨hok, heq⟩
    · exact .inl he
  refine { toCoherent := h', stopped := ?_, distinct := ?_, waiting := ?_, busy := ?_,
           published := ?_, spawned := ?_ }
  · intro hstopped
    exact nomatch hadm.running.symm.trans hstopped
  -- the waiting jobs have different recordings
  · rw [hadm.spawning]
    split_ifs with hok
    · refine (Keyed.insert_of_new ?_ : Keyed.insert Prod.fst s.spawning (m.recordingId, kind) = _) ▸
        Keyed.distinct_insert h.distinct
      exact fun e he => hne (h.waiting e he).2
    · exact h.distinct
  -- each of them waits for an active recording
  · intro e he
    rw [hadm.jobs]
    obtain he | ⟨hok, rfl⟩ := hspawning e he
    · exact ⟨(h.waiting e he).1, hkept (h.waiting e he).2⟩
    · have hstate : s'.state.Runs m.recordingId := by
        refine ⟨m, hadm.state ▸ State.get_enter_self, ?_⟩
        rw [RecordingManifest.isActive, hadm.pending]
        rfl
      refine ⟨hidle, hstate, ?_⟩
      rw [hadm.written hok, State.loadState_journal h'.state.consistent]
      exact hstate
  -- a busy job works for an active recording
  · rw [hphase]
    exact fun id p hp hbusy => hkept (h.busy id p hp hbusy)
  -- a published recording is ready; the new recording has no job yet
  · rw [hphase]
    intro id hp m' hm'
    have hused : id ≠ m.recordingId := by
      rintro rfl
      rw [phase, hidle] at hp
      exact nomatch hp
    rw [hadm.state, State.get_enter_of_ne hused] at hm'
    exact h.published id hp m' hm'
  -- jobs only exist for ids that were used
  · rw [hadm.jobs, hadm.used]
    exact fun id hjob => List.mem_append_left _ (h.spawned id hjob)

/-- The phases after the job of one recording was replaced. -/
theorem phase_update (jobs : Uuid → Option Job) (kind : JobKind) (q : JobPhase) :
    (fun x => (Function.update jobs id (some ⟨kind, q⟩) x).map Job.phase) =
      Function.update (fun x => (jobs x).map Job.phase) id (some q) := by
  funext x
  by_cases hx : x = id
  · subst hx
    simp
  · simp [Function.update_of_ne hx]

/-- The phases before and after a step of a job. -/
theorem JobStep.phase_eq {e : Event} {p q : JobPhase} {f : RecordingManifest → RecordingManifest}
    (h : JobStep cfg sha256 s e id p q f s') :
    s.phase id = some p ∧ s'.phase = Function.update s.phase id (some q) := by
  obtain ⟨kind, hwas, -, hjobs⟩ := h.moves
  refine ⟨by rw [phase, hwas, Option.map_some], ?_⟩
  change (fun x => (s'.jobs x).map Job.phase) = _
  rw [hjobs]
  exact phase_update s.jobs kind q

/-- A spawned job is queued, and no longer waits. -/
theorem registered_spawn {kind : JobKind} (h : s.Registered)
    (hlookup : Keyed.lookup Prod.fst s.spawning id = some (id, kind)) :
    Registered { s with
      spawning := Keyed.remove Prod.fst s.spawning id
      jobs := Function.update s.jobs id (some { kind }) } := by
  have hmem := (Keyed.mem_of_lookup hlookup).1
  have hphase : phase { s with
      spawning := Keyed.remove Prod.fst s.spawning id
      jobs := Function.update s.jobs id (some { kind }) } =
        Function.update s.phase id (some .queued) := phase_update s.jobs kind .queued
  refine { toCoherent := ⟨h.state, h.journal, h.agree⟩, stopped := ?_, distinct := ?_,
           waiting := ?_, busy := ?_, published := ?_, spawned := ?_ }
  -- a stopped manager has no job to spawn
  · intro hstopped
    have hnone := (h.stopped hstopped).2.2
    rw [hnone] at hmem
    exact nomatch hmem
  · exact Keyed.distinct_remove h.distinct
  -- the others keep waiting
  · intro e he
    obtain ⟨he, hne⟩ := Keyed.mem_remove.mp he
    refine ⟨?_, (h.waiting e he).2⟩
    rw [← (h.waiting e he).1]
    exact Function.update_of_ne hne _ _
  -- the recording of the new job was active while it waited
  · intro id' p hp hbusy
    rw [hphase] at hp
    by_cases heq : id' = id
    · subst heq
      exact (h.waiting _ hmem).2
    · rw [Function.update_of_ne heq] at hp
      exact h.busy id' p hp hbusy
  -- a queued job has not published
  · intro id' hp
    rw [hphase] at hp
    by_cases heq : id' = id
    · subst heq
      rw [Function.update_self] at hp
      exact nomatch hp
    · rw [Function.update_of_ne heq] at hp
      exact h.published id' hp
  · intro id' hjob
    by_cases heq : id' = id
    · subst heq
      exact h.mem_used (h.waiting _ hmem).2
    · refine h.spawned id' ?_
      simpa [Function.update_of_ne heq] using hjob

/-- An acknowledgement releases no recording that has a job to do. -/
theorem registered_acknowledged {now : Timestamp} {faults : AckFaults} (h : s.Registered)
    (hrunning : s.running = true) (hack : Acknowledged s id now faults s') : s'.Registered := by
  have h' : s'.Coherent := coherent_acknowledged h.toCoherent hack
  cases hack with
  | refused => exact h
  | removed =>
    exact
      { h with
        toCoherent := h'
        stopped := fun hstopped => nomatch hrunning.symm.trans hstopped }
  | @released m journal hget hinactive hjournal _ =>
    -- the released recording is not active, so it belongs to no job
    have hkept : ∀ {id'}, s.Running id' → Running { s with
        state := s.state.release id now
        directory := withoutMedia s.directory m
        journal } id' := by
      intro id' hrun
      refine hrun.of_state h' hjournal ?_
      obtain ⟨m', hm', hactive⟩ := hrun.1
      have hne : id' ≠ id := by
        rintro rfl
        obtain rfl := Option.some.inj (hget.symm.trans hm')
        exact nomatch hactive.symm.trans hinactive
      exact ⟨m', (State.get_release_of_ne hne).trans hm', hactive⟩
    refine { toCoherent := h', stopped := ?_, distinct := h.distinct, waiting := ?_, busy := ?_,
             published := ?_, spawned := h.spawned }
    · intro hstopped
      exact nomatch hrunning.symm.trans hstopped
    · exact fun e he => ⟨(h.waiting e he).1, hkept (h.waiting e he).2⟩
    · exact fun id' p hp hbusy => hkept (h.busy id' p hp hbusy)
    · intro id' hp m' hm'
      refine h.published id' hp m' ?_
      by_cases heq : id' = id
      · subst heq
        exact nomatch hm'.symm.trans State.get_release_self
      · exact (State.get_release_of_ne heq).symm.trans hm'

/-- The recovery starts without jobs. -/
theorem registered_restarted {now : Timestamp} (h : s.Registered)
    (hres : Restarted sha256 s now s') : s'.Registered := by
  obtain ⟨-, hjobs, hspawning⟩ := h.stopped hres.stopped
  have hnone : ∀ id, s'.jobs id = none := hres.jobs ▸ hjobs
  have hphase : ∀ id, s'.phase id = none := fun id => by rw [phase, hnone, Option.map_none]
  have hempty : s'.spawning = [] := hres.spawning.trans hspawning
  refine { toCoherent := coherent_restarted h.toCoherent hres, stopped := ?_, distinct := ?_,
           waiting := ?_, busy := ?_, published := ?_, spawned := ?_ }
  · intro hstopped
    refine ⟨?_, hnone, hempty⟩
    -- the restarted manager runs
    rcases hres.state with ⟨hrunning, -⟩ | ⟨-, hstate⟩
    · exact nomatch hrunning.symm.trans hstopped
    · exact hstate
  · rw [hempty]
    exact List.nodup_nil
  · rw [hempty]
    exact fun e he => nomatch he
  · exact fun id p hp => nomatch (hphase id).symm.trans hp
  · exact fun id hp => nomatch (hphase id).symm.trans hp
  · exact fun id hjob => absurd (hnone id) hjob

/-! ### Steps of a job -/

/-- A job that is busy after a step was busy before it, and its recording is still active. -/
theorem busy_of_moves {kind : JobKind} {found : Option RecordingManifest} {d d' : Directory}
    {e : Event} {p q : JobPhase} {f : RecordingManifest → RecordingManifest}
    (h : Moves cfg sha256 id kind found d e p q f d') (hq : q.busy = true) :
    p.busy = true ∧ ∀ m, m.isActive = true → (f m).isActive = true := by
  cases h with
  | begin | beginFailed => exact ⟨rfl, fun _ _ => rfl⟩
  | timeout error hp =>
    refine ⟨?_, fun _ hm => hm⟩
    rcases hp with rfl | ⟨_, rfl⟩ | ⟨_, rfl⟩ | ⟨_, rfl⟩ <;> rfl
  | complete | recordReady | recordFailed => exact nomatch hq
  | _ => exact ⟨rfl, fun _ hm => hm⟩

/-- A transfer that has received a chunk is still at work. -/
theorem busy_receive (file : Bytes) (w : Writer) (source : Bytes) (now : Timestamp) (stop : Bool)
    (fault : Option (ℕ × String)) : (receive cfg file w source now stop fault).2.busy = true := by
  unfold receive
  split
  · rfl
  · rfl
  · split
    · rfl
    · rfl
    · dsimp only
      split_ifs
      · split <;> rfl
      · rfl

/-- Only `complete` leads to the phase after it. -/
theorem ready_of_moves {kind : JobKind} {found : Option RecordingManifest} {d d' : Directory}
    {e : Event} {p q : JobPhase} {f : RecordingManifest → RecordingManifest}
    (h : Moves cfg sha256 id kind found d e p q f d') (hq : q = .completed)
    (m : RecordingManifest) :
    (f m).status = .ready := by
  cases h with
  | complete => rfl
  | @receive w file source now stop fault _ =>
    have hbusy := @busy_receive cfg file w source now (stop && kind = .live) fault
    rw [hq] at hbusy
    exact nomatch hbusy
  | _ => exact nomatch hq

/-- The step of a job changes its own recording only. -/
theorem registered_job {e : Event} {p q : JobPhase} {f : RecordingManifest → RecordingManifest}
    (h : s.Registered) (hjob : JobStep cfg sha256 s e id p q f s') : s'.Registered := by
  have h' : s'.Coherent := coherent_job h.toCoherent hjob
  obtain ⟨kind, hwas, hmoves, hjobs⟩ := hjob.moves
  have hf := fun m => (request_of_moves hmoves m).1
  obtain ⟨hp, hphase⟩ := hjob.phase_eq
  -- the other recordings keep their manifests
  have hother : ∀ {id'}, id' ≠ id → s.Running id' → s'.Running id' := by
    intro id' hne hrun
    refine hrun.of_state h' hjob.journal ?_
    obtain ⟨m, hm, hactive⟩ := hrun.1
    exact ⟨m, by rw [hjob.state, State.get_update_of_ne hf hne, hm], hactive⟩
  refine { toCoherent := h', stopped := ?_, distinct := ?_, waiting := ?_, busy := ?_,
           published := ?_, spawned := ?_ }
  -- a stopped manager has no job that could take a step
  · intro hstopped
    rw [hjob.running] at hstopped
    exact nomatch hwas.symm.trans ((h.stopped hstopped).2.1 id)
  · exact hjob.spawning ▸ h.distinct
  -- the waiting jobs are of other recordings
  · intro e he
    rw [hjob.spawning] at he
    obtain ⟨hnone, hrun⟩ := h.waiting e he
    have hne : e.1 ≠ id := by
      intro heq
      rw [heq, hwas] at hnone
      exact nomatch hnone
    refine ⟨?_, hother hne hrun⟩
    rw [hjobs, Function.update_of_ne hne, hnone]
  -- a job is busy as long as its recording is active
  · intro id' p' hp' hbusy
    rw [hphase] at hp'
    by_cases heq : id' = id
    · subst heq
      rw [Function.update_self] at hp'
      obtain rfl := Option.some.inj hp'
      obtain ⟨hpbusy, hactive⟩ := busy_of_moves hmoves hbusy
      have hrun := h.busy id' p hp hpbusy
      refine hrun.of_state h' hjob.journal ?_
      obtain ⟨m, hm, hm'⟩ := hrun.1
      exact ⟨f m, by rw [hjob.state, State.get_update_self hf, hm, Option.map_some], hactive m hm'⟩
    · rw [Function.update_of_ne heq] at hp'
      exact hother heq (h.busy id' p' hp' hbusy)
  -- a job has published when its recording is ready
  · intro id' hp' m hm
    rw [hphase] at hp'
    rw [hjob.state] at hm
    by_cases heq : id' = id
    · subst heq
      rw [Function.update_self] at hp'
      obtain rfl := Option.some.inj hp'
      rw [State.get_update_self hf] at hm
      obtain ⟨m₀, -, rfl⟩ := Option.map_eq_some_iff.mp hm
      exact ready_of_moves hmoves rfl m₀
    · rw [Function.update_of_ne heq] at hp'
      rw [State.get_update_of_ne hf heq] at hm
      exact h.published id' hp' m hm
  -- no job is added
  · intro id' hne
    rw [hjob.used]
    rw [hjobs] at hne
    by_cases heq : id' = id
    · subst heq
      exact h.spawned id' (hwas ▸ Option.some_ne_none _)
    · rw [Function.update_of_ne heq] at hne
      exact h.spawned id' hne

/-- Every step of the manager keeps the jobs registered. -/
theorem registered_step {e : Event} (h : s.Registered) (hstep : s.step cfg sha256 e = some s') :
    s'.Registered := by
  have h' : s'.Coherent := coherent_step h.toCoherent hstep
  cases step_cases hstep with
  | idle hidle =>
    -- nothing but the directory or the given out ids has changed
    obtain ⟨-, hjournal, hrunning, hstate, hjobs, hspawning, hused⟩ := hidle
    have hrun : ∀ {id}, s.Running id → s'.Running id := by
      intro id hrun
      rwa [Running, hstate, hjournal]
    have hphase : s'.phase = s.phase := by
      funext x
      rw [phase, phase, hjobs]
    refine { toCoherent := h', stopped := ?_, distinct := hspawning ▸ h.distinct, waiting := ?_,
             busy := ?_, published := ?_, spawned := ?_ }
    · rw [hrunning, hstate, hjobs, hspawning]
      exact h.stopped
    · rw [hspawning, hjobs]
      exact fun e he => ⟨(h.waiting e he).1, hrun (h.waiting e he).2⟩
    · rw [hphase]
      exact fun id p hp hbusy => hrun (h.busy id p hp hbusy)
    · rw [hphase, hstate]
      exact h.published
    · rw [hjobs]
      exact fun id hjob => hused (h.spawned id hjob)
  | admitted _ hadm => exact registered_admitted h hadm
  | spawn hlookup => exact registered_spawn h hlookup
  | acknowledge hrunning hack => exact registered_acknowledged h hrunning hack
  -- a crash takes the jobs and the state with them
  | crash =>
    exact { toCoherent := h', stopped := fun _ => ⟨rfl, fun _ => rfl, rfl⟩,
            distinct := List.nodup_nil, waiting := fun _ he => (nomatch he),
            busy := fun _ _ hp => (nomatch hp), published := fun _ hp => (nomatch hp),
            spawned := fun _ hjob => absurd rfl hjob }
  | restart hres => exact registered_restarted h hres
  | job hjob => exact registered_job h hjob

/-! ### Refused requests -/

/-- The request could be admitted, and then its journal write fails. -/
def Loses (cfg : Config) (s : Manager) (e : Event) : Prop :=
  ∃ key m kind scan persist, Requests e key m kind scan persist ∧
    Admissible cfg s.state key m (kind = .sd) (scan.map spoolBytes) ∧ persist ≠ .ok

/-- Every active recording has a job that is at work, or is about to be spawned. -/
def Attended (s : Manager) : Prop :=
  ∀ m ∈ s.state.manifests, m.isActive = true →
    (∃ e ∈ s.spawning, e.1 = m.recordingId) ∨
      ∃ p, s.phase m.recordingId = some p ∧ p.busy = true

/-- The steps that end the work of a job end the recording. -/
theorem inactive_of_moves {kind : JobKind} {found : Option RecordingManifest} {d d' : Directory}
    {e : Event} {p q : JobPhase} {f : RecordingManifest → RecordingManifest}
    (h : Moves cfg sha256 id kind found d e p q f d') (hp : p.busy = true) (hq : q.busy = false)
    (m : RecordingManifest) : (f m).isActive = false := by
  cases h with
  | complete | recordFailed => rfl
  | recordReady => exact nomatch hp
  | @receive w file source now stop fault _ =>
    exact nomatch (busy_receive file w source now _ fault).symm.trans hq
  | _ => exact nomatch hq

/-- The only step from a phase that is not busy is the one that follows the completion. -/
theorem completed_of_moves {kind : JobKind} {found : Option RecordingManifest} {d d' : Directory}
    {e : Event} {p q : JobPhase} {f : RecordingManifest → RecordingManifest}
    (h : Moves cfg sha256 id kind found d e p q f d') (hp : p.busy = false) :
    p = .completed ∧ f = fun m => m := by
  cases h with
  | recordReady => exact ⟨rfl, rfl⟩
  | timeout error hcase =>
    rcases hcase with rfl | ⟨_, rfl⟩ | ⟨_, rfl⟩ | ⟨_, rfl⟩ <;> exact nomatch hp
  | _ => exact nomatch hp

/-- The step of a job leaves no active recording without a job. -/
theorem attended_job {e : Event} {p q : JobPhase} {f : RecordingManifest → RecordingManifest}
    (hreg : s.Registered) (h : s.Attended) (hjob : JobStep cfg sha256 s e id p q f s') :
    s'.Attended := by
  obtain ⟨kind, hwas, hmoves, hjobs⟩ := hjob.moves
  have hf := fun m => (request_of_moves hmoves m).1
  obtain ⟨hp, hphase⟩ := hjob.phase_eq
  intro m hm hactive
  rw [hjob.state] at hm
  obtain ⟨m₀, hm₀, rfl⟩ := Keyed.mem_modify.mp hm
  -- the recording of the job, or another one
  rw [hjob.spawning, hphase]
  split_ifs at hactive ⊢ with heq
  · rw [hf, heq, Function.update_self]
    refine .inr ⟨q, rfl, ?_⟩
    -- a job that stops being busy leaves its recording inactive
    by_contra hq
    rw [Bool.not_eq_true] at hq
    cases hbusy : p.busy with
    | true => exact nomatch hactive.symm.trans (inactive_of_moves hmoves hbusy hq m₀)
    | false =>
      -- the job was past `complete`, which has published the recording
      obtain ⟨rfl, rfl⟩ := completed_of_moves hmoves hbusy
      have hget := heq ▸ State.get_of_mem hreg.state.consistent hm₀
      have hready := hreg.published id hp m₀ hget
      rw [RecordingManifest.isActive, hready] at hactive
      exact nomatch hactive
  · rw [Function.update_of_ne heq]
    exact h m₀ hm₀ hactive

/-- Unless a request is lost, every active recording has a job or waits for one. -/
theorem attended_step {e : Event} (hreg : s.Registered) (h : s.Attended) (hok : ¬ Loses cfg s e)
    (hstep : s.step cfg sha256 e = some s') : s'.Attended := by
  cases step_cases hstep with
  | idle hidle =>
    intro m hm hactive
    rw [hidle.state] at hm
    rw [hidle.spawning, phase, hidle.jobs]
    exact h m hm hactive
  | @admitted _ key m kind scan persist _ hreq hadm =>
    intro m' hm' hactive
    -- the request was not lost, so its journal was persisted
    have hpersist : persist = .ok := by
      by_contra hne
      exact hok ⟨key, m, kind, scan, persist, hreq, admission_eq_none_iff.mp hadm.accepts, hne⟩
    rw [hadm.state] at hm'
    rw [hadm.spawning, if_pos hpersist, phase, hadm.jobs]
    -- the recordings of before, or the new one
    rcases Keyed.mem_insert.mp hm' with ⟨hm', -⟩ | rfl
    · refine (h m' hm' hactive).imp_left ?_
      rintro ⟨e, he, heq⟩
      exact ⟨e, List.mem_append_left _ he, heq⟩
    · exact .inl ⟨_, List.mem_append_right _ (List.mem_singleton_self _), rfl⟩
  | @spawn id kind hlookup =>
    intro m hm hactive
    rw [phase]
    dsimp only
    -- the job that was spawned is there now
    by_cases heq : m.recordingId = id
    · rw [heq, Function.update_self]
      exact .inr ⟨.queued, rfl, rfl⟩
    · rw [Function.update_of_ne heq]
      refine (h m hm hactive).imp_left ?_
      rintro ⟨e, he, hid⟩
      exact ⟨e, Keyed.mem_remove.mpr ⟨he, hid ▸ heq⟩, hid⟩
  | acknowledge _ hack =>
    cases hack with
    | refused => exact h
    | removed => exact h
    | released => exact fun m hm hactive => h m (Keyed.mem_remove.mp hm).1 hactive
  -- after a crash there is no recording in memory
  | crash => exact fun m hm => nomatch hm
  | restart hres =>
    intro m hm hactive
    rcases hres.state with ⟨-, heq⟩ | ⟨-, heq⟩ <;> rw [heq] at hm
    -- the recovery leaves no recording active
    · obtain ⟨m₀, -, rfl⟩ := List.mem_map.mp hm
      exact nomatch hactive.symm.trans (isActive_recoverManifest ..)
    · exact nomatch hm
  | job hjob => exact attended_job hreg h hjob

/-- **When a refused request leaves no trace.** `enqueue` leaves the state as it was whenever it
returns an error, exactly if it is not the case that the request can be admitted and the journal
cannot be written. In every run without such a step, every active recording has a job that is at
work or about to be spawned. -/
theorem refused_request_leaves_no_trace_iff (cfg : Config) (sha256 : Sha256) :
    (∀ (state : State) (key : String) (m : RecordingManifest) (exclusive : Bool)
      (spool : Except BridgeError ℕ) (persist : Persist),
      ((∃ error, (Recordings.enqueue cfg state key m exclusive spool persist).1 = .error error) →
        (Recordings.enqueue cfg state key m exclusive spool persist).2.2 = state) ↔
      ¬ (Admissible cfg state key m exclusive spool ∧ persist ≠ .ok)) ∧
    ∀ (directory : Directory) (events : List Event) (s : Manager),
      EventSystem.Steps (step cfg sha256) (fun s e => ¬ Loses cfg s e) { directory } events →
      EventSystem.run (step cfg sha256) { directory } events = some s → s.Attended := by
  constructor
  -- the checks of the admission, in the order of the source
  · intro state key m exclusive spool persist
    unfold Recordings.enqueue
    split
    case h_1 error herror =>
      refine iff_of_true (fun _ => rfl) fun ⟨hadm, _⟩ => ?_
      exact nomatch herror.symm.trans (admission_eq_none_iff.mpr hadm)
    case h_2 found hfound =>
      refine iff_of_true (fun _ => rfl) fun ⟨hadm, _⟩ => ?_
      exact nomatch hfound.symm.trans (admission_eq_none_iff.mpr hadm)
    case h_3 hnone =>
      have hadm := admission_eq_none_iff.mp hnone
      -- the key of an admitted request is new, so its insertion shows
      have hchanged : state.enter key m ≠ state := by
        intro heq
        refine hadm.unheld (.inl ⟨(key, m.recordingId), ?_, rfl⟩)
        rw [← heq]
        exact Keyed.mem_insert.mpr (.inr rfl)
      cases persist with
      | ok => exact iff_of_true (fun ⟨_, herror⟩ => nomatch herror) fun ⟨_, hne⟩ => hne rfl
      | failed renamed detail =>
        refine iff_of_false (fun h => hchanged (h ⟨_, rfl⟩)) fun h => h ⟨hadm, ?_⟩
        exact fun heq => nomatch heq
  -- the run, with the registration of the jobs as an invariant
  · intro directory events s hok hrun
    have hinv : s.Registered ∧ s.Attended := by
      refine EventSystem.run_invariant (fun s : Manager => s.Registered ∧ s.Attended) ?_
        ⟨registered_fresh directory, fun _ hm => nomatch hm⟩ hok hrun
      rintro t e t' ⟨hreg, hatt⟩ hlost hstep
      exact ⟨registered_step hreg hstep, attended_step hreg hatt hlost hstep⟩
    exact hinv.2

/-- A recording that begins, and two requests meanwhile that are not admitted: a key that is too
short with a journal that cannot be written, and another recording for which there is no room. -/
def sampleRefused : List Event :=
  [.restart 0 .ok, .start "front" 10 "request-0001" 1 1 (.ok []) .ok, .spawn 1,
    .start "front" 10 "short" 2 2 (.ok []) (.failed false "no space left on device"),
    .begin 1 .ok, .start "front" 10 "request-0002" 3 3 (.error (.io "input/output error")) .ok]

/-- A request for a recording that is too short is refused, so it is not lost. -/
theorem not_loses_short {s : Manager} {camera : String} {duration id now : ℕ}
    {scan : Except BridgeError Directory} {persist : Persist} :
    ¬Loses sampleConfig s (.start camera duration "short" id now scan persist) := by
  rintro ⟨key, m, kind, scan, persist, hreq, hadm, -⟩
  cases hreq
  exact absurd hadm.size.1 (by decide +kernel)

theorem refused_request_leaves_no_trace_iff_sample :
    ∃ s, EventSystem.run (step sampleConfig sampleSha256) {} sampleRefused = some s ∧
      s.state.active = [1] ∧ s.Attended ∧
      (Recordings.enqueue sampleConfig s.state "short" (.pending 4 4 "front" 10) false (.ok 0)
        (.failed false "no space left on device")).2.2 = s.state := by
  -- both parts of the theorem are applied, to the run and to the last request
  obtain ⟨hrequest, hruns⟩ := refused_request_leaves_no_trace_iff sampleConfig sampleSha256
  obtain ⟨s, hs, hactive, herror⟩ :
      ∃ s ∈ EventSystem.run (step sampleConfig sampleSha256) {} sampleRefused,
        s.state.active = [1] ∧
          (Recordings.enqueue sampleConfig s.state "short" (.pending 4 4 "front" 10) false (.ok 0)
            (.failed false "no space left on device")).1.isOk = false := by
    decide +kernel
  have hok : EventSystem.Steps (step sampleConfig sampleSha256)
      (fun s e => ¬Loses sampleConfig s e) {} sampleRefused := by
    -- the two accepted requests are persisted, and the third is refused
    have hfree : ∀ e ∈ sampleRefused, ∀ s, ¬Loses sampleConfig s e := by
      simp only [sampleRefused, List.forall_mem_cons]
      refine ⟨?_, ?_, ?_, fun s => not_loses_short, ?_, ?_, List.forall_mem_nil _⟩
      all_goals
        -- the journal of every other request can be written
        rintro s ⟨key, m, kind, scan, persist, hreq, -, hpersist⟩
        cases hreq
      · exact hpersist rfl
      · exact hpersist rfl
    exact EventSystem.Steps.of_forall hfree
  refine ⟨s, hs, hactive, hruns [] sampleRefused s hok hs, ?_⟩
  refine (hrequest s.state "short" (.pending 4 4 "front" 10) false (.ok 0) _).mpr ?_ ?_
  · exact fun h => absurd h.1.size.1 (by decide +kernel)
  · generalize (Recordings.enqueue sampleConfig s.state "short" (.pending 4 4 "front" 10) false
      (.ok 0) (.failed false "no space left on device")).1 = reply at herror
    cases reply with
    | error error => exact ⟨error, rfl⟩
    | ok value => cases herror

/-- The journal cannot be written. The request fails, but its manifest stays: the same request again
is answered with it although no job was spawned, it counts as active, and it cannot be
acknowledged. -/
theorem refused_request_leaves_phantom :
    ∃ s ∈ EventSystem.run (step sampleConfig sampleSha256) {} [.restart 0 .ok],
      let m := RecordingManifest.pending 1 1 "front" 10
      let first := Recordings.enqueue sampleConfig s.state "request-0001" m false (.ok 0)
        (.failed false "no space left on device")
      first.1 = .error (.io "no space left on device") ∧ first.2.2 ≠ s.state ∧
      (Recordings.enqueue sampleConfig first.2.2 "request-0001" (.pending 2 2 "front" 10) false
        (.ok 0) .ok).1 = .ok (m, false) ∧
      first.2.2.active = [1] ∧
      (acknowledge first.2.2 s.directory 1 3 {}).1 = .error .recordingActive := by
  decide +kernel

end Manager

end Recordings

end EzvizBridge
