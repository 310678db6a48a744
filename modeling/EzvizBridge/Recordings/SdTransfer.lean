import EzvizBridge.Recordings.Writing
import EzvizBridge.Lib.Chunks

/-!
# A microSD transfer

`capture_sd` (`sd.rs`) runs two tasks that meet in a bounded queue: the playback session hands its
chunks to `Channel::consume`, which sends them in slices, and `write_media` takes the slices off
again. Here both are split at the points where the other one may come in between: every slice is
sent by itself, and the writer is as in the manager's model.

* The session may hand over any chunks, go on after a refusal, and end in any way at any time.
* The time limit may run out at any `await` of `write_media`. The creation of the file or its
  rename, which was handed to another thread, may still take place then, before `discard_partial`
  comes to the file; a creation that is even later is left out.
* Each file operation may fail.

`offered` and `received` are not in the program: they record the chunks that the session has handed
over and the slices that the writer has taken.
-/

namespace EzvizBridge

namespace Recordings

def queueChunks : ℕ := 512

def chunkBytes : ℕ := 64 * 1024

/-- The task of the playback session. -/
inductive Playback
  /-- the session is at work, or has not begun -/
  | playing
  /-- in `consume`; these slices are still to be sent -/
  | sending (slices : List Bytes)
  /-- the session has returned, and the only sender is dropped -/
  | dropped
  /-- the task is over; a panic counts as an error -/
  | ended (result : Except BridgeError Unit)
  deriving DecidableEq

/-- Where `capture_sd` stands, behind `begin`. -/
inductive Capture
  /-- in `timeout(limit, self.write_media(..))`, or in the `discard_partial` that follows it -/
  | media (phase : JobPhase)
  /-- cancelled; the session is awaited -/
  | joining (result : Except BridgeError Written)
  /-- the transfer is refused: the media file is removed -/
  | retracting (written : Written) (error : BridgeError)
  /-- what comes before `complete` is over -/
  | returned (result : Except BridgeError Written)
  deriving DecidableEq

/-- A transfer: both tasks, what they share, and the files of the recording. -/
structure Transfer where
  id : Uuid
  queue : List Bytes := []
  overflowed : Bool := false
  playback : Playback := .playing
  capture : Capture := .media .opening
  directory : Directory := []
  offered : List Bytes := []
  received : List Arrival := []
  deriving DecidableEq

namespace Transfer

/-- What can happen next. -/
inductive Event
  /-- the session calls `consume` -/
  | consume (chunk : Bytes)
  /-- `try_send` of the next slice, or the end of `consume` -/
  | send
  /-- the session returns -/
  | release
  /-- its task ends -/
  | finish (result : Except BridgeError Unit)
  /-- the partial file is created, or cannot be -/
  | create (fault : Option String)
  /-- a slice is received and written, or a part of it is and the write fails -/
  | receive (now : Timestamp) (fault : Option (ℕ × String))
  /-- the queue is closed -/
  | close
  /-- the file is synced and renamed, or not -/
  | flush (fault : Option FlushFault)
  /-- the directory is synced, or not -/
  | publish (fault : Option String)
  /-- the time limit runs out; the creation or the rename in progress may still take place -/
  | timeout (done : Bool)
  /-- the partial file is removed, or cannot be -/
  | discard (removed : Bool)
  /-- the session is joined -/
  | join
  /-- the media file is removed, or cannot be -/
  | retract (removed : Bool)
  deriving DecidableEq

/-- Both senders and slices are gone. -/
def closed (self : Transfer) :
    Prop := self.queue = [] ∧ (self.playback = .dropped ∨ ∃ result, self.playback = .ended result)

instance (self : Transfer) : Decidable self.closed :=
  match h : self.playback with
  | .dropped => decidable_of_iff (self.queue = []) (by simp [closed, h])
  | .ended _ => decidable_of_iff (self.queue = []) (by simp [closed, h])
  | .playing => isFalse (by simp [closed, h])
  | .sending _ => isFalse (by simp [closed, h])

/-- A step of the session. -/
def playbackStep (self : Transfer) : Playback → Event → Option Transfer
  | .playing, .consume chunk =>
    some
      { self with
        playback := .sending (chunks chunkBytes chunk)
        offered := self.offered ++ [chunk] }
  | .sending [], .send => some { self with playback := .playing }
  | .sending (slice :: slices), .send =>
    if self.queue.length < queueChunks then
      some { self with playback := .sending slices, queue := self.queue ++ [slice] }
    else
      -- the rest of the chunk is given up
      some { self with playback := .playing, overflowed := true }
  | .playing, .release => some { self with playback := .dropped }
  | .dropped, .finish result => some { self with playback := .ended result }
  | _, _ => none

/-- The error of a transfer that takes too long. -/
def timedOut : BridgeError := .recording "microSD transfer timed out"

/-- The error of a transfer that was not taken off the queue fast enough. -/
def outran : BridgeError := .capacity "microSD transfer outran the spool"

/-- A step of the writer. -/
def captureStep (cfg : Config) (self : Transfer) : Capture → Event → Option Transfer
  | .media .opening, .create (some detail) =>
    some { self with capture := .media (.discarding (.io detail)) }
  | .media .opening, .create none =>
    -- `create_new`
    if self.directory.isFile (.partialOf self.id) then none
    else
      some { self with
        capture := .media (.writing {})
        directory := self.directory.write (.partialOf self.id) [] }
  | .media (.writing writer), .receive now fault =>
    match self.queue, self.directory.read (.partialOf self.id) with
    | slice :: queue, some file =>
      let (file, phase) := Manager.receive cfg file writer slice now false fault
      some { self with
        queue
        capture := .media phase
        directory := self.directory.write (.partialOf self.id) file
        received := self.received ++ [{ source := slice, now }] }
    | _, _ => none
  | .media (.writing writer), .close =>
    if self.closed then
      match writer.finish with
      | .error error => some { self with capture := .media (.discarding error) }
      | .ok written => some { self with capture := .media (.flushing written) }
    else none
  | .media (.flushing _), .flush (some (.sync detail)) =>
    some { self with capture := .media (.discarding (.io detail)) }
  | .media (.flushing _), .flush (some (.rename detail)) =>
    some { self with capture := .media (.discarding (.io detail)) }
  | .media (.flushing written), .flush none =>
    some { self with
      capture := .media (.publishing written)
      directory := self.directory.rename (.partialOf self.id) (.media self.id written.format) }
  | .media (.publishing _), .publish (some detail) =>
    some { self with capture := .media (.discarding (.io detail)) }
  | .media (.publishing written), .publish none =>
    some { self with capture := .joining (.ok written) }
  | .media .opening, .timeout false | .media (.writing _), .timeout false
  | .media (.flushing _), .timeout false | .media (.discarding _), .timeout false =>
    some { self with capture := .media (.discarding timedOut) }
  | .media .opening, .timeout true =>
    -- `create_new`, when nobody waits for the file any more
    if self.directory.isFile (.partialOf self.id) then none
    else
      some { self with
        capture := .media (.discarding timedOut)
        directory := self.directory.write (.partialOf self.id) [] }
  | .media (.flushing written), .timeout true =>
    some { self with
      capture := .media (.discarding timedOut)
      directory := self.directory.rename (.partialOf self.id) (.media self.id written.format) }
  | .media (.discarding error), .discard removed =>
    some { self with
      capture := .joining (.error error)
      directory := if removed then self.directory.removeFile (.partialOf self.id) else
        self.directory }
  | .joining written, .join =>
    match self.playback with
    | .ended produced =>
      match written, produced with
      | .error _, .error error => some { self with capture := .returned (.error error) }
      | .error error, .ok () => some { self with capture := .returned (.error error) }
      | .ok written, .error error => some { self with capture := .retracting written error }
      | .ok written, .ok () =>
        if self.overflowed then some { self with capture := .retracting written outran }
        else some { self with capture := .returned (.ok written) }
    | _ => none
  | .retracting written error, .retract removed =>
    some { self with
      capture := .returned (.error error)
      directory :=
        if removed then self.directory.removeFile (.media self.id written.format) else
          self.directory }
  | _, _ => none

/-- One event; `none` when it cannot happen in this state. -/
def step (cfg : Config) (self : Transfer) : Event → Option Transfer
  | .consume chunk => self.playbackStep self.playback (.consume chunk)
  | .send => self.playbackStep self.playback .send
  | .release => self.playbackStep self.playback .release
  | .finish result => self.playbackStep self.playback (.finish result)
  | event => self.captureStep cfg self.capture event

/-! ### What a step does -/

section Steps

variable {cfg : Config} {t t' : Transfer} {event : Event}

/-- What the session does to the transfer. -/
inductive Plays (t : Transfer) : Transfer → Prop
  | consume (chunk : Bytes) (hplaying : t.playback = .playing) :
    Plays t
      { t with playback := .sending (chunks chunkBytes chunk), offered := t.offered ++ [chunk] }
  | sent (hsending : t.playback = .sending []) : Plays t { t with playback := .playing }
  | send (slice : Bytes) (slices : List Bytes)
    (hsending : t.playback = .sending (slice :: slices)) :
    Plays t { t with playback := .sending slices, queue := t.queue ++ [slice] }
  | refused (slices : List Bytes) (hsending : t.playback = .sending slices) :
    Plays t { t with playback := .playing, overflowed := true }
  | release (hplaying : t.playback = .playing) : Plays t { t with playback := .dropped }
  | finish (result : Except BridgeError Unit) (hdropped : t.playback = .dropped) :
    Plays t { t with playback := .ended result }

/-- How `write_media` fails by itself, and with which error. -/
inductive Fails : Event → JobPhase → BridgeError → Prop
  | create (detail : String) : Fails (.create (some detail)) .opening (.io detail)
  | close (writer : Writer) (error : BridgeError) (hfinish : writer.finish = .error error) :
    Fails .close (.writing writer) error
  | sync (detail : String) (written : Written) :
    Fails (.flush (some (.sync detail))) (.flushing written) (.io detail)
  | rename (detail : String) (written : Written) :
    Fails (.flush (some (.rename detail))) (.flushing written) (.io detail)
  | publish (detail : String) (written : Written) :
    Fails (.publish (some detail)) (.publishing written) (.io detail)
  | timeout (phase : JobPhase)
    (hphase : phase = .opening ∨ (∃ writer, phase = .writing writer) ∨
      (∃ written, phase = .flushing written) ∨ ∃ error, phase = .discarding error) :
    Fails (.timeout false) phase timedOut

/-- What the writer does to the transfer. -/
inductive Writes (cfg : Config) (t : Transfer) : Event → Transfer → Prop
  | failed (e : Event) (phase : JobPhase) (error : BridgeError) (hphase : t.capture = .media phase)
    (hfails : Fails e phase error) :
    Writes cfg t e { t with capture := .media (.discarding error) }
  | created (e : Event) (phase : JobPhase) (hphase : t.capture = .media .opening)
    (hfile : t.directory.isFile (.partialOf t.id) = false)
    (hnext : e = .create none ∧ phase = .writing {} ∨
      e = .timeout true ∧ phase = .discarding timedOut) :
    Writes cfg t e
      { t with
        capture := .media phase
        directory := t.directory.write (.partialOf t.id) [] }
  | received (writer : Writer) (slice : Bytes) (queue : List Bytes) (file : Bytes) (now : Timestamp)
    (fault : Option (ℕ × String)) (hphase : t.capture = .media (.writing writer))
    (hqueue : t.queue = slice :: queue) (hfile : t.directory.read (.partialOf t.id) = some file) :
    Writes cfg t (.receive now fault)
      { t with
        queue
        capture := .media (Manager.receive cfg file writer slice now false fault).2
        directory :=
          t.directory.write (.partialOf t.id)
            (Manager.receive cfg file writer slice now false fault).1
        received := t.received ++ [{ source := slice, now }] }
  | closed (writer : Writer) (written : Written) (hphase : t.capture = .media (.writing writer))
    (hclosed : t.closed) (hfinish : writer.finish = .ok written) :
    Writes cfg t .close { t with capture := .media (.flushing written) }
  | renamed (e : Event) (written : Written) (phase : JobPhase)
    (hphase : t.capture = .media (.flushing written))
    (hnext : e = .flush none ∧ phase = .publishing written ∨
      e = .timeout true ∧ phase = .discarding timedOut) :
    Writes cfg t e
      { t with
        capture := .media phase
        directory := t.directory.rename (.partialOf t.id) (.media t.id written.format) }
  | published (written : Written) (hphase : t.capture = .media (.publishing written)) :
    Writes cfg t (.publish none) { t with capture := .joining (.ok written) }
  | discarded (error : BridgeError) (removed : Bool)
    (hphase : t.capture = .media (.discarding error)) :
    Writes cfg t (.discard removed)
      { t with
        capture := .joining (.error error)
        directory := if removed then t.directory.removeFile (.partialOf t.id) else t.directory }
  | broke (error error' : BridgeError) (produced : Except BridgeError Unit)
    (hjoining : t.capture = .joining (.error error)) (hended : t.playback = .ended produced)
    (herror : produced = .error error' ∨ produced = .ok () ∧ error' = error) :
    Writes cfg t .join { t with capture := .returned (.error error') }
  | refused (written : Written) (error : BridgeError) (produced : Except BridgeError Unit)
    (hjoining : t.capture = .joining (.ok written)) (hended : t.playback = .ended produced)
    (herror : produced = .error error ∨ produced = .ok () ∧ error = outran ∧ t.overflowed = true) :
    Writes cfg t .join { t with capture := .retracting written error }
  | accepted (written : Written) (hjoining : t.capture = .joining (.ok written))
    (hended : t.playback = .ended (.ok ())) (hall : t.overflowed = false) :
    Writes cfg t .join { t with capture := .returned (.ok written) }
  | retracted (written : Written) (error : BridgeError) (removed : Bool)
    (hretracting : t.capture = .retracting written error) :
    Writes cfg t (.retract removed)
      { t with
        capture := .returned (.error error)
        directory :=
          if removed then t.directory.removeFile (.media t.id written.format) else t.directory }

theorem plays_of_playbackStep (h : t.playbackStep t.playback event = some t') : Plays t t' := by
  rw [playbackStep.eq_def] at h
  split at h
  · next hplaying =>
    cases h
    exact .consume _ hplaying
  · next hsending =>
    cases h
    exact .sent hsending
  · next slice slices hsending =>
    split at h
    · cases h
      exact .send slice slices hsending
    · cases h
      exact .refused _ hsending
  · next hplaying =>
    cases h
    exact .release hplaying
  · next result hdropped =>
    cases h
    exact .finish result hdropped
  · cases h

theorem writes_of_captureStep (h : t.captureStep cfg t.capture event = some t') :
    Writes cfg t event t' := by
  rw [captureStep.eq_def] at h
  split at h
  · next detail hphase =>
    cases h
    exact .failed _ _ _ hphase (.create detail)
  · next hphase =>
    split at h
    · cases h
    · next hfile =>
      cases h
      exact .created _ _ hphase (by simpa using hfile) (.inl ⟨rfl, rfl⟩)
  · next writer now fault hphase =>
    split at h
    · next slice queue file hqueue hfile =>
      cases h
      exact .received writer slice queue file now fault hphase hqueue hfile
    · cases h
  · next writer hphase =>
    split at h
    · next hclosed =>
      split at h
      · next error hfinish =>
        cases h
        exact .failed _ _ _ hphase (.close writer error hfinish)
      · next written hfinish =>
        cases h
        exact .closed writer written hphase hclosed hfinish
    · cases h
  · next written detail hphase =>
    cases h
    exact .failed _ _ _ hphase (.sync detail written)
  · next written detail hphase =>
    cases h
    exact .failed _ _ _ hphase (.rename detail written)
  · next hphase =>
    cases h
    exact .renamed _ _ _ hphase (.inl ⟨rfl, rfl⟩)
  · next written detail hphase =>
    cases h
    exact .failed _ _ _ hphase (.publish detail written)
  · next hphase =>
    cases h
    exact .published _ hphase
  -- the time limit, when nothing is on its way
  · next hphase =>
    cases h
    exact .failed _ _ _ hphase (.timeout _ (.inl rfl))
  · next hphase =>
    cases h
    exact .failed _ _ _ hphase (.timeout _ (.inr (.inl ⟨_, rfl⟩)))
  · next hphase =>
    cases h
    exact .failed _ _ _ hphase (.timeout _ (.inr (.inr (.inl ⟨_, rfl⟩))))
  · next hphase =>
    cases h
    exact .failed _ _ _ hphase (.timeout _ (.inr (.inr (.inr ⟨_, rfl⟩))))
  -- the time limit, while the file is created or renamed
  · next hphase =>
    split at h
    · cases h
    · next hfile =>
      cases h
      exact .created _ _ hphase (by simpa using hfile) (.inr ⟨rfl, rfl⟩)
  · next hphase =>
    cases h
    exact .renamed _ _ _ hphase (.inr ⟨rfl, rfl⟩)
  · next hphase =>
    cases h
    exact .discarded _ _ hphase
  · next hjoining =>
    split at h
    · next produced hended =>
      split at h
      · cases h
        exact .broke _ _ _ hjoining hended (.inl rfl)
      · cases h
        exact .broke _ _ _ hjoining hended (.inr ⟨rfl, rfl⟩)
      · cases h
        exact .refused _ _ _ hjoining hended (.inl rfl)
      · split at h
        · next hover =>
          cases h
          exact .refused _ _ _ hjoining hended (.inr ⟨rfl, rfl, hover⟩)
        · next hover =>
          cases h
          exact .accepted _ hjoining hended (by simpa using hover)
    · cases h
  · next hretracting =>
    cases h
    exact .retracted _ _ _ hretracting
  · cases h

/-- A step is one of the session or one of the writer. -/
theorem step_cases (h : t.step cfg event = some t') : Plays t t' ∨ Writes cfg t event t' := by
  rw [step.eq_def] at h
  split at h
  · exact .inl (plays_of_playbackStep h)
  · exact .inl (plays_of_playbackStep h)
  · exact .inl (plays_of_playbackStep h)
  · exact .inl (plays_of_playbackStep h)
  · exact .inr (writes_of_captureStep h)

theorem step_id (h : t.step cfg event = some t') : t'.id = t.id := by
  rcases step_cases h with hplays | hwrites
  · cases hplays <;> rfl
  · cases hwrites <;> rfl

/-- What the loop may do with a slice when there is no stop point: write on, or give up. -/
theorem receive_phase (cfg : Config) (file slice : Bytes) (w : Writer) (now : Timestamp)
    (fault : Option (ℕ × String)) :
    (∃ error, (Manager.receive cfg file w slice now false fault).2 = .discarding error) ∨
      ∃ w', (Manager.receive cfg file w slice now false fault).2 = .writing w' ∧
        Manager.receive cfg file w slice now false fault =
          Manager.receive cfg file w slice now false none := by
  unfold Manager.receive
  split
  · exact .inl ⟨_, rfl⟩
  · exact .inr ⟨_, rfl, rfl⟩
  · split
    · exact .inl ⟨_, rfl⟩
    · exact .inl ⟨_, rfl⟩
    · next hreserve =>
      simp only [hreserve]
      exact .inr ⟨_, rfl, trivial⟩

end Steps

end Transfer

end Recordings

end EzvizBridge
