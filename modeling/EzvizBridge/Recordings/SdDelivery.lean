import EzvizBridge.Recordings.SdTransfer

/-!
# What a microSD transfer keeps

A transfer that is accepted has saved everything that the session handed over, from the place on at
which media were found: no slice was refused, none was lost or doubled on its way through the queue,
and the file holds all of them in order (`transfer_complete`). A transfer that is not accepted
leaves no file, unless `write_media` has failed when the file was in place already; its error is the
session's own if the session has failed (`transfer_failed`).

Both follow from one invariant (`Transfer.Sound`): as long as no slice was refused, what was
received, what is queued and what `consume` still holds make up what was handed over, and each phase
of the writer has the file that the loop of `write_partial` makes of what was received.
-/

namespace EzvizBridge

namespace Recordings

/-- The slices that `consume` still holds. -/
def Playback.pending : Playback → List Bytes
  | .sending slices => slices
  | _ => []

namespace Transfer

variable {cfg : Config} {t t' : Transfer} {event : Event}

/-- The loop of `write_partial` has come to its end, and this is what it has made. -/
def Whole (cfg : Config) (t : Transfer) (x : Written) : Prop :=
  t.closed ∧ writePartial cfg t.received = (x.digest, .flushing x)

/-- The session is over, and if it failed, then with this error. -/
def Blamed (t : Transfer) (error : BridgeError) : Prop :=
  ∃ produced, t.playback = .ended produced ∧ ∀ own, produced = .error own → own = error

/-- What holds where `capture_sd` stands. -/
def Stage (cfg : Config) (t : Transfer) : Capture → Prop
  | .media .opening => t.directory = [] ∧ t.received = []
  | .media (.writing w) =>
    ∃ file, t.directory = [(.partialOf t.id, file)] ∧ receiveAll cfg t.received = (file, .writing w)
  | .media (.flushing x) => t.directory = [(.partialOf t.id, x.digest)] ∧ t.Whole cfg x
  | .media (.publishing x) | .joining (.ok x) =>
    t.directory = [(.media t.id x.format, x.digest)] ∧ t.Whole cfg x
  | .retracting x error => t.directory = [(.media t.id x.format, x.digest)] ∧ t.Blamed error
  | .returned (.ok x) =>
    t.directory = [(.media t.id x.format, x.digest)] ∧ t.Whole cfg x ∧ t.overflowed = false ∧
      t.playback = .ended (.ok ())
  | .returned (.error error) => t.Blamed error
  | .media (.discarding _) | .joining (.error _) => True
  -- the other phases of a job are outside of `write_media`
  | .media _ => False

/-- The invariant of a transfer: what was handed over is on its way, and the writer has what has
arrived. -/
structure Sound (cfg : Config) (t : Transfer) : Prop where
  flow : t.overflowed = false →
    t.received.map (·.source) ++ t.queue ++ t.playback.pending =
      t.offered.flatMap (chunks chunkBytes)
  steady : ∀ a ∈ t.received, a.stop = false
  stage : t.Stage cfg t.capture

/-! ### Steps of the session -/

/-- A queue that is closed stays closed. -/
theorem Plays.closed (h : Plays t t') (hclosed : t.closed) : t'.closed := by
  obtain ⟨hqueue, hover⟩ := hclosed
  cases h with
  | consume chunk hplaying => simp [hplaying] at hover
  | sent hsending => simp [hsending] at hover
  | send slice slices hsending => simp [hsending] at hover
  | refused slices hsending => simp [hsending] at hover
  | release hplaying => simp [hplaying] at hover
  | finish result hdropped => exact ⟨hqueue, .inr ⟨result, rfl⟩⟩

theorem Plays.not_ended {produced : Except BridgeError Unit} (h : Plays t t') :
    t.playback ≠ .ended produced := by
  intro hended
  cases h <;> simp_all

/-- The writer does not see what the session does, except that the queue may be closed. -/
theorem Stage.plays {capture : Capture} (h : Plays t t') (hstage : t.Stage cfg capture) :
    t'.Stage cfg capture := by
  have hsame : t'.directory = t.directory ∧ t'.id = t.id ∧ t'.received = t.received := by
    cases h <;> exact ⟨rfl, rfl, rfl⟩
  obtain ⟨hdirectory, hid, hreceived⟩ := hsame
  have hwhole : ∀ x, t.Whole cfg x → t'.Whole cfg x := by
    rintro x ⟨hclosed, hwritten⟩
    exact ⟨h.closed hclosed, by rwa [hreceived]⟩
  have hblamed : ∀ error, ¬ t.Blamed error := by
    rintro error ⟨produced, hended, -⟩
    exact h.not_ended hended
  -- on the phase of the writer; it depends on the queue, the directory and the end of the session
  cases capture with
  | media phase =>
    cases phase with
    | opening => exact ⟨hdirectory.trans hstage.1, hreceived.trans hstage.2⟩
    | writing w =>
      obtain ⟨file, hfile, hloop⟩ := hstage
      exact ⟨file, by rw [hdirectory, hid, hfile], by rw [hreceived, hloop]⟩
    | flushing x | publishing x => exact ⟨by rw [hdirectory, hid, hstage.1], hwhole x hstage.2⟩
    | discarding error => exact trivial
    | _ => exact hstage.elim
  | joining result =>
    cases result with
    | ok x => exact ⟨by rw [hdirectory, hid, hstage.1], hwhole x hstage.2⟩
    | error error => exact trivial
  | retracting x error => exact absurd hstage.2 (hblamed error)
  | returned result =>
    cases result with
    | ok x => exact absurd hstage.2.2.2 h.not_ended
    | error error => exact absurd hstage (hblamed error)

/-- A step of the session. -/
theorem Sound.plays (h : t.Sound cfg) (hplays : Plays t t') : t'.Sound cfg := by
  have hstage := h.stage.plays hplays
  have hcapture : t'.capture = t.capture := by cases hplays <;> rfl
  refine ⟨fun hkept => ?_, ?_, hcapture ▸ hstage⟩
  · -- the chunk goes from the session over `consume` to the queue
    have hflow := h.flow
    cases hplays with
    | consume chunk hplaying =>
      have hbefore := hflow hkept
      rw [hplaying] at hbefore
      simp only [Playback.pending, List.append_nil] at hbefore ⊢
      rw [hbefore, List.flatMap_append, List.flatMap_singleton]
    | sent hsending =>
      have hbefore := hflow hkept
      rw [hsending] at hbefore
      exact hbefore
    | send slice slices hsending =>
      have hbefore := hflow hkept
      rw [hsending] at hbefore
      rw [← hbefore]
      simp [Playback.pending]
    | refused slices hsending => exact absurd hkept (by simp)
    | release hplaying =>
      have hbefore := hflow hkept
      rw [hplaying] at hbefore
      exact hbefore
    | finish result hdropped =>
      have hbefore := hflow hkept
      rw [hdropped] at hbefore
      exact hbefore
  · have hreceived : t'.received = t.received := by cases hplays <;> rfl
    rw [hreceived]
    exact h.steady

/-! ### Steps of the writer -/

/-- A slice that is received is one more pass of the loop. -/
theorem receiveAll_concat {arrivals : List Arrival} {file slice : Bytes} {w : Writer}
    {now : Timestamp} (h : receiveAll cfg arrivals = (file, .writing w)) :
    receiveAll cfg (arrivals ++ [{ source := slice, now }]) =
      Manager.receive cfg file w slice now false none := by
  rw [receiveAll, List.foldl_append, ← receiveAll, h]
  rfl

/-- A step of the writer. -/
theorem Sound.writes (hcfg : cfg.Bounded) (h : t.Sound cfg) (hwrites : Writes cfg t event t') :
    t'.Sound cfg := by
  have hstage := h.stage
  cases hwrites with
  | failed _ phase error hphase hfails => exact ⟨h.flow, h.steady, trivial⟩
  | created _ phase hphase hfile hnext =>
    rw [hphase] at hstage
    obtain ⟨hdirectory, hreceived⟩ := hstage
    refine ⟨h.flow, h.steady, ?_⟩
    rcases hnext with ⟨-, rfl⟩ | ⟨-, rfl⟩
    · refine ⟨[], ?_, ?_⟩
      · show t.directory.write (.partialOf t.id) [] = _
        rw [hdirectory]
        rfl
      · show receiveAll cfg t.received = _
        rw [hreceived]
        rfl
    · -- the time was up, and nothing is asked of the file any more
      exact trivial
  -- a slice leaves the queue, and is received
  | received writer slice queue file now fault hphase hqueue hfile =>
    rw [hphase] at hstage
    obtain ⟨own, hdirectory, hloop⟩ := hstage
    -- the file that is read is the one of the phase
    obtain rfl : own = file := by
      rw [hdirectory] at hfile
      simpa [Directory.read, Keyed.lookup] using hfile
    refine ⟨fun hkept => ?_, ?_, ?_⟩
    · show (t.received ++ [({ source := slice, now } : Arrival)]).map (·.source) ++ queue ++ _ = _
      rw [← h.flow hkept, hqueue, List.map_append, List.map_singleton]
      simp
    · intro a ha
      rcases List.mem_append.mp ha with hold | hnew
      · exact h.steady a hold
      · rw [List.mem_singleton.mp hnew]
    -- it ends the writer, or is part of the file
    · show Stage cfg _ (.media (Manager.receive cfg own writer slice now false fault).2)
      rcases receive_phase cfg own slice writer now fault with ⟨error, hgone⟩ | ⟨w', hon, hsame⟩
      · rw [hgone]
        exact trivial
      · rw [hon]
        refine ⟨(Manager.receive cfg own writer slice now false fault).1, ?_, ?_⟩
        · show t.directory.write (.partialOf t.id) _ = _
          rw [hdirectory, Directory.write_singleton]
        · show receiveAll cfg (t.received ++ [{ source := slice, now }]) = _
          rw [receiveAll_concat hloop, ← hsame, ← hon]
  -- the queue is closed and empty: the file is complete
  | closed writer written hphase hclosed hfinish =>
    rw [hphase] at hstage
    obtain ⟨file, hdirectory, hloop⟩ := hstage
    have hstopped : writePartial cfg t.received = (file, .flushing written) := by
      rw [writePartial, hloop]
      simp [Recordings.closed, hfinish]
    obtain ⟨hdigest, -⟩ := writePartial_outcome hcfg hstopped
    refine ⟨h.flow, h.steady, ?_, hclosed, ?_⟩
    · show t.directory = [(.partialOf t.id, written.digest)]
      rw [hdirectory, hdigest]
    · show writePartial cfg t.received = _
      rw [hstopped, hdigest]
  -- the file has its name now
  | renamed _ written phase hphase hnext =>
    rw [hphase] at hstage
    obtain ⟨hdirectory, hwhole⟩ := hstage
    refine ⟨h.flow, h.steady, ?_⟩
    rcases hnext with ⟨-, rfl⟩ | ⟨-, rfl⟩
    · refine ⟨?_, hwhole⟩
      show t.directory.rename (.partialOf t.id) (.media t.id written.format) = _
      rw [hdirectory, Directory.rename_singleton]
    · exact trivial
  | published written hphase =>
    rw [hphase] at hstage
    exact ⟨h.flow, h.steady, hstage⟩
  | discarded error removed hphase => exact ⟨h.flow, h.steady, trivial⟩
  -- the session has failed: its error comes first
  | broke error error' produced hjoining hended herror =>
    refine ⟨h.flow, h.steady, produced, hended, fun own hown => ?_⟩
    rcases herror with rfl | ⟨rfl, -⟩
    · exact (Except.error.inj hown).symm
    · cases hown
  | refused written error produced hjoining hended herror =>
    rw [hjoining] at hstage
    refine ⟨h.flow, h.steady, hstage.1, produced, hended, fun own hown => ?_⟩
    rcases herror with rfl | ⟨rfl, -, -⟩
    · exact (Except.error.inj hown).symm
    · cases hown
  -- the session has ended well, and so has the writer
  | accepted written hjoining hended hall =>
    rw [hjoining] at hstage
    exact ⟨h.flow, h.steady, hstage.1, hstage.2, hall, hended⟩
  | retracted written error removed hretracting =>
    rw [hretracting] at hstage
    exact ⟨h.flow, h.steady, hstage.2⟩

/-! ### Whole transfers -/

theorem Sound.step (hcfg : cfg.Bounded) (h : t.Sound cfg) (hstep : t.step cfg event = some t') :
    t'.Sound cfg := by
  rcases step_cases hstep with hplays | hwrites
  · exact h.plays hplays
  · exact h.writes hcfg hwrites

theorem sound_start (cfg : Config) (id : Uuid) : Sound cfg { id } :=
  ⟨fun _ => rfl, fun _ ha => absurd ha List.not_mem_nil, rfl, rfl⟩

theorem Sound.of_run {id : Uuid} {events : List Event} (hcfg : cfg.Bounded)
    (hrun : EventSystem.run (Transfer.step cfg) { id } events = some t) : t.Sound cfg :=
  EventSystem.run_keeps (Sound cfg) (fun _ _ _ h hstep => h.step hcfg hstep)
    (sound_start cfg id) hrun

/-- Without a stop point everything is taken. -/
theorem taken_of_steady {before : Bytes} {arrivals : List Arrival}
    (h : ∀ a ∈ arrivals, a.stop = false) :
    taken before arrivals = arrivals := by
  induction arrivals generalizing before with
  | nil => rfl
  | cons a rest ih =>
    rw [List.forall_mem_cons] at h
    obtain ⟨hfirst, hrest⟩ := h
    rw [taken, if_neg (by simp [hfirst]), ih hrest, ← hfirst]

/-- The slices of some chunks make up the chunks. -/
theorem flatten_slices {n : ℕ} (hn : 0 < n) (l : List Bytes) :
    (l.flatMap (chunks n)).flatten = l.flatten := by
  induction l with
  | nil => rfl
  | cons chunk l ih =>
    rw [List.flatMap_cons, List.flatten_append, flatten_chunks hn, ih, List.flatten_cons]

/-- An accepted transfer has saved everything that the session handed over, from the first slice
boundary at which media are found. -/
theorem transfer_complete {id : Uuid} {events : List Event} {x : Written} (hcfg : cfg.Bounded)
    (hrun : EventSystem.run (step cfg) { id } events = some t)
    (haccepted : t.capture = .returned (.ok x)) :
    t.playback = .ended (.ok ()) ∧ t.queue = [] ∧ x.Holds cfg.maxBytes ∧
      ∃ o, firstAlignment [] (t.offered.flatMap (chunks chunkBytes)) = some (o, x.format) ∧
        x.digest = t.offered.flatten.drop o ∧
        t.directory = [(.media id x.format, t.offered.flatten.drop o)] := by
  obtain ⟨hflow, hsteady, hstage⟩ := Sound.of_run hcfg hrun
  have hid : t.id = id :=
    EventSystem.run_keeps (fun t => t.id = id)
      (fun _ _ _ h hstep => (step_id hstep).trans h) rfl hrun
  rw [haccepted] at hstage
  obtain ⟨hdirectory, ⟨hclosed, hwritten⟩, hkept, hended⟩ := hstage
  obtain ⟨-, hholds, o, hfirst, hfile⟩ := writePartial_outcome hcfg hwritten
  -- nothing is left in the queue or with the session
  have hall : t.received.map (·.source) = t.offered.flatMap (chunks chunkBytes) := by
    rw [← hflow hkept, hclosed.1, hended]
    simp [Playback.pending]
  have hstream : streamOf t.received = t.offered.flatten := by
    rw [streamOf, hall, flatten_slices (by decide)]
  rw [taken_of_steady hsteady, hall] at hfirst
  rw [taken_of_steady hsteady, hstream] at hfile
  exact ⟨hended, hclosed.1, hholds, o, hfirst, hfile, by rw [hdirectory, hid, hfile]⟩

def sampleTransfer : List Event :=
  [.consume [0x55, 0x00, 0x00, 0x01, 0xba, 0x07], .send, .create none, .send, .release,
    .receive 3 none, .finish (.ok ()), .close, .flush none, .publish none, .join]

/-- A session that sends a pack in one chunk is saved from the pack on. -/
theorem transfer_complete_sample :
    ∃ t ∈ EventSystem.run (step Manager.sampleConfig) { id := 1 } sampleTransfer,
      ∃ o, t.directory = [(.media 1 .mpegPs, t.offered.flatten.drop o)] := by
  have hcfg : Manager.sampleConfig.Bounded := ⟨by decide, by decide⟩
  obtain ⟨t, ht, haccepted⟩ :
      ∃ t ∈ EventSystem.run (step Manager.sampleConfig) { id := 1 } sampleTransfer,
        t.capture = .returned (.ok ⟨3, 5, [0x00, 0x00, 0x01, 0xba, 0x07], .mpegPs⟩) := by
    decide +kernel
  obtain ⟨-, -, -, o, -, -, hdirectory⟩ := transfer_complete hcfg ht haccepted
  exact ⟨t, ht, o, hdirectory⟩

/-! ### Refused transfers -/

/-- A removal that takes place succeeds. -/
def Event.Tidy : Event → Prop
  | .discard false | .retract false => False
  | _ => True

instance : DecidablePred Event.Tidy := fun event => by
  unfold Event.Tidy
  split <;> infer_instance

/-- `write_media` fails with the file in place: the directory cannot be synced after the rename, or
the rename is overtaken by the time limit. -/
def Slips (t : Transfer) (event : Event) : Prop :=
  match event, t.capture with
  | .publish (some _), _ | .timeout true, .media (.flushing _) => True
  | _, _ => False

instance (t : Transfer) : DecidablePred t.Slips := fun event => by
  unfold Slips
  split <;> infer_instance

/-- The finished file, with everything that was handed to the writer. -/
def Finished (cfg : Config) (t : Transfer) : Prop :=
  ∃ x, t.Whole cfg x ∧ t.directory = [(.media t.id x.format, x.digest)]

/-- Nothing has slipped so far. -/
def Clean (past : List (Transfer × Event)) : Prop := ∀ p ∈ past, ¬ p.1.Slips p.2

instance : DecidablePred Clean := fun past =>
  inferInstanceAs (Decidable (∀ p ∈ past, ¬ p.1.Slips p.2))

/-- The files of a transfer whose removals succeed. -/
def Swept (cfg : Config) (past : List (Transfer × Event)) (t : Transfer) : Capture → Prop
  | .media (.discarding _) =>
    Clean past ∧ (t.directory = [] ∨ ∃ file, t.directory = [(.partialOf t.id, file)]) ∨
      ¬ Clean past ∧ t.Finished cfg
  | .joining (.error _) | .returned (.error _) =>
    Clean past ∧ t.directory = [] ∨ ¬ Clean past ∧ t.Finished cfg
  | _ => Clean past

section Sweeping

variable {past : List (Transfer × Event)}

theorem clean_concat : Clean (past ++ [(t, event)]) ↔ Clean past ∧ ¬ t.Slips event := by
  rw [Clean, List.forall_mem_append, List.forall_mem_singleton]
  rfl

theorem clean_of_not_slips (h : ¬ t.Slips event) : Clean (past ++ [(t, event)]) ↔ Clean past := by
  rw [clean_concat]
  exact and_iff_left h

/-- A step that does not slip leaves it to the phase what becomes of the files. -/
theorem Swept.congr {past' : List (Transfer × Event)} {capture : Capture}
    (h : t.Swept cfg past capture) (hpast : Clean past' ↔ Clean past)
    (hdirectory : t'.directory = t.directory) (hid : t'.id = t.id)
    (hfinished : t.Finished cfg → t'.Finished cfg) : t'.Swept cfg past' capture := by
  -- on the phase of the capture
  cases capture with
  | media phase =>
    cases phase with
    | discarding error =>
      rw [Swept, hpast, hdirectory, hid]
      exact h.imp_right fun hslipped => ⟨hslipped.1, hfinished hslipped.2⟩
    | _ => exact hpast.mpr h
  | joining result | returned result =>
    cases result with
    | ok x => exact hpast.mpr h
    | error error =>
      rw [Swept, hpast, hdirectory]
      exact h.imp_right fun hslipped => ⟨hslipped.1, hfinished hslipped.2⟩
  | retracting x error => exact hpast.mpr h

/-- What slips is a step of the writer. -/
theorem writes_of_slips (hslips : t.Slips event) (h : t.step cfg event = some t') :
    Writes cfg t event t' := by
  cases event with
  | publish | timeout => exact writes_of_captureStep h
  | consume | send | release | finish | create | receive | close | flush | discard |
    join | retract =>
    exact hslips.elim

/-- The session does not touch the files. -/
theorem Swept.plays (h : t.Swept cfg past t.capture) (hplays : Plays t t')
    (hslips : ¬ t.Slips event) :
    t'.Swept cfg (past ++ [(t, event)]) t'.capture := by
  have hsame : t'.directory = t.directory ∧ t'.id = t.id ∧ t'.capture = t.capture ∧
      t'.received = t.received := by
    cases hplays <;> exact ⟨rfl, rfl, rfl, rfl⟩
  obtain ⟨hdirectory, hid, hcapture, hreceived⟩ := hsame
  rw [hcapture]
  refine h.congr (clean_of_not_slips hslips) hdirectory hid ?_
  rintro ⟨x, ⟨hclosed, hwritten⟩, hfile⟩
  exact ⟨x, ⟨hplays.closed hclosed, by rwa [hreceived]⟩, by rw [hdirectory, hid, hfile]⟩

/-- The writer gives up in a phase in which there is no finished file. -/
theorem Swept.give_up {phase : JobPhase} {error : BridgeError} (hsound : t.Sound cfg)
    (h : t.Swept cfg past t.capture) (hphase : t.capture = .media phase)
    (hfails : Fails event phase error) (hslips : ¬ t.Slips event) :
    Swept cfg (past ++ [(t, event)]) t (.media (.discarding error)) := by
  have hstage := hsound.stage
  rw [hphase] at hstage h
  rw [Swept, clean_of_not_slips hslips]
  -- on what has failed; in none of these phases is there a finished file
  cases hfails with
  | create detail => exact .inl ⟨h, .inl hstage.1⟩
  | close writer error hfinish =>
    obtain ⟨file, hfile, -⟩ := hstage
    exact .inl ⟨h, .inr ⟨file, hfile⟩⟩
  | sync detail x | rename detail x => exact .inl ⟨h, .inr ⟨x.digest, hstage.1⟩⟩
  | publish detail x => exact absurd trivial hslips
  | timeout _ hwhere =>
    rcases hwhere with rfl | ⟨writer, rfl⟩ | ⟨x, rfl⟩ | ⟨error, rfl⟩
    · exact .inl ⟨h, .inl hstage.1⟩
    · obtain ⟨file, hfile, -⟩ := hstage
      exact .inl ⟨h, .inr ⟨file, hfile⟩⟩
    · exact .inl ⟨h, .inr ⟨x.digest, hstage.1⟩⟩
    · exact h

/-- A step of the writer, where the removals succeed. -/
theorem Swept.writes (hsound : t.Sound cfg) (h : t.Swept cfg past t.capture) (htidy : event.Tidy)
    (hwrites : Writes cfg t event t') : t'.Swept cfg (past ++ [(t, event)]) t'.capture := by
  have hstage := hsound.stage
  have hgo : ¬ t.Slips event → Clean past → Clean (past ++ [(t, event)]) := fun hslips hclean =>
    (clean_of_not_slips hslips).mpr hclean
  cases hwrites with
  | failed _ phase error hphase hfails =>
    by_cases hslips : t.Slips event
    · -- only the sync of the directory fails behind the rename
      cases hfails with
      | publish detail x =>
        rw [hphase] at hstage
        refine .inr ⟨fun hclean => (clean_concat.mp hclean).2 trivial, x, ?_, hstage.1⟩
        exact hstage.2
      | create | close | sync | rename | timeout => exact hslips.elim
    · exact (h.give_up hsound hphase hfails hslips).congr Iff.rfl rfl rfl fun hfinished => hfinished
  -- the partial file was created, perhaps too late
  | created _ phase hphase hfile hnext =>
    rw [hphase] at hstage h
    rcases hnext with ⟨rfl, rfl⟩ | ⟨rfl, rfl⟩
    · exact hgo not_false h
    · have hslips : ¬ t.Slips (.timeout true) := by simp [Slips, hphase]
      refine .inl ⟨hgo hslips h, .inr ⟨[], ?_⟩⟩
      show t.directory.write (.partialOf t.id) [] = _
      rw [hstage.1]
      rfl
  -- the slice was received, or has ended the writer
  | received writer slice queue file now fault hphase hqueue hfile =>
    rw [hphase] at hstage h
    obtain ⟨own, hdirectory, -⟩ := hstage
    show Swept cfg _ _ (.media (Manager.receive cfg file writer slice now false fault).2)
    rcases receive_phase cfg file slice writer now fault with ⟨error, hgone⟩ | ⟨w', hon, -⟩
    · rw [hgone]
      refine .inl
        ⟨hgo not_false h, .inr ⟨(Manager.receive cfg file writer slice now false fault).1, ?_⟩⟩
      show t.directory.write (.partialOf t.id) _ = _
      rw [hdirectory, Directory.write_singleton]
    · rw [hon]
      exact hgo not_false h
  | closed writer written hphase hclosed hfinish =>
    rw [hphase] at h
    exact hgo not_false h
  -- the file was renamed, perhaps too late
  | renamed _ written phase hphase hnext =>
    rw [hphase] at hstage h
    rcases hnext with ⟨rfl, rfl⟩ | ⟨rfl, rfl⟩
    · exact hgo not_false h
    · -- the time is up, and the file is in place
      have hslips : t.Slips (.timeout true) := by simp [Slips, hphase]
      refine .inr ⟨fun hclean => (clean_concat.mp hclean).2 hslips, written, hstage.2, ?_⟩
      show t.directory.rename (.partialOf t.id) (.media t.id written.format) = _
      rw [hstage.1, Directory.rename_singleton]
  | published written hphase =>
    rw [hphase] at h
    exact hgo not_false h
  -- the partial file is removed
  | discarded error removed hphase =>
    rw [hphase] at h
    cases removed with
    | false => exact htidy.elim
    | true =>
      rcases h with ⟨hclean, hfiles⟩ | ⟨hslipped, x, hwhole, hfile⟩
      · refine .inl ⟨hgo not_false hclean, ?_⟩
        show t.directory.removeFile (.partialOf t.id) = []
        rcases hfiles with hnone | ⟨file, hfile⟩
        · rw [hnone]
          rfl
        · rw [hfile, Directory.removeFile_singleton]
      · -- there is no partial file to remove
        refine .inr ⟨fun hclean => hslipped (clean_concat.mp hclean).1, x, hwhole, ?_⟩
        show t.directory.removeFile (.partialOf t.id) = _
        rw [hfile]
        exact Directory.removeFile_singleton_of_ne (by rintro ⟨⟩)
  -- the session has failed, and the writer with it
  | broke error error' produced hjoining hended herror =>
    rw [hjoining] at h
    rcases h with ⟨hclean, hnone⟩ | ⟨hslipped, hfinished⟩
    · exact .inl ⟨hgo not_false hclean, hnone⟩
    · exact .inr ⟨fun hclean => hslipped (clean_concat.mp hclean).1, hfinished⟩
  | refused written error produced hjoining hended herror =>
    rw [hjoining] at h
    exact hgo not_false h
  | accepted written hjoining hended hall =>
    rw [hjoining] at h
    exact hgo not_false h
  -- the finished file is removed again
  | retracted written error removed hretracting =>
    rw [hretracting] at hstage h
    cases removed with
    | false => exact htidy.elim
    | true =>
      refine .inl ⟨hgo not_false h, ?_⟩
      show t.directory.removeFile (.media t.id written.format) = []
      rw [hstage.1, Directory.removeFile_singleton]

end Sweeping

/-- **A transfer that is not accepted leaves no file**, unless `write_media` has failed with the
file in place; then that file stays, and it is whole. Its session has ended, and if that has failed,
the error is the session's own. -/
theorem transfer_failed {id : Uuid} {events : List Event} {error : BridgeError} (hcfg : cfg.Bounded)
    (htidy : ∀ e ∈ events, e.Tidy)
    (hrun : EventSystem.run (step cfg) { id } events = some t)
    (hfailed : t.capture = .returned (.error error)) :
    (Clean (EventSystem.trace (step cfg) { id } events) → t.directory = []) ∧
      (¬ Clean (EventSystem.trace (step cfg) { id } events) → t.Finished cfg) ∧ t.Blamed error := by
  -- the writer and the files, over the whole run
  have hsteps : EventSystem.Steps (step cfg) (fun _ e => e.Tidy) { id } events :=
    EventSystem.Steps.of_forall fun e he _ => htidy e he
  have hinv : t.Sound cfg ∧
      t.Swept cfg ([] ++ EventSystem.trace (step cfg) { id } events) t.capture := by
    refine EventSystem.run_history_of (fun past t => t.Sound cfg ∧ t.Swept cfg past t.capture) ?_
      ⟨sound_start cfg id, fun _ hp => absurd hp List.not_mem_nil⟩ hsteps hrun
    rintro past s e s' ⟨hsound, hswept⟩ he hstep
    refine ⟨hsound.step hcfg hstep, ?_⟩
    by_cases hslips : s.Slips e
    · exact hswept.writes hsound he (writes_of_slips hslips hstep)
    · rcases step_cases hstep with hplays | hwrites
      · exact hswept.plays hplays hslips
      · exact hswept.writes hsound he hwrites
  obtain ⟨hsound, hswept⟩ := hinv
  have hstage := hsound.stage
  rw [List.nil_append, hfailed] at hswept
  rw [hfailed] at hstage
  refine ⟨fun hclean => ?_, fun hslipped => ?_, hstage⟩
  · exact hswept.elim And.right fun hother => absurd hclean hother.1
  · exact hswept.elim (fun hother => absurd hother.1 hslipped) And.right

def sampleFailure : List Event :=
  [.create none, .consume [0x00], .send, .send, .receive 3 none, .release,
    .finish (.error .sdNoRecording), .close, .discard true, .join]

def sampleSlip : List Event :=
  [.consume [0x00, 0x00, 0x01, 0xba, 0x07], .send, .create none, .send, .release, .receive 3 none,
    .finish (.ok ()), .close, .flush none, .publish (some "disk"), .discard true, .join]

/-- A session that fails, and a transfer whose finished file stays. -/
theorem transfer_failed_sample :
    (∃ t ∈ EventSystem.run (step Manager.sampleConfig) { id := 1 } sampleFailure,
      t.directory = [] ∧ t.Blamed .sdNoRecording) ∧
    ∃ t ∈ EventSystem.run (step Manager.sampleConfig) { id := 1 } sampleSlip,
      t.Finished Manager.sampleConfig ∧ t.Blamed (.io "disk") := by
  have hcfg : Manager.sampleConfig.Bounded := ⟨by decide, by decide⟩
  obtain ⟨t, ht, hfailed⟩ :
      ∃ t ∈ EventSystem.run (step Manager.sampleConfig) { id := 1 } sampleFailure,
        t.capture = .returned (.error .sdNoRecording) := by
    decide +kernel
  obtain ⟨u, hu, hslipped⟩ :
      ∃ t ∈ EventSystem.run (step Manager.sampleConfig) { id := 1 } sampleSlip,
        t.capture = .returned (.error (.io "disk")) := by
    decide +kernel
  obtain ⟨hnone, -, hblamed⟩ := transfer_failed hcfg (by decide) ht hfailed
  obtain ⟨-, hfinished, hblamed'⟩ := transfer_failed hcfg (by decide) hu hslipped
  exact ⟨⟨t, ht, hnone (by decide +kernel), hblamed⟩, u, hu,
    hfinished (by decide +kernel), hblamed'⟩

end Transfer

end Recordings

end EzvizBridge
