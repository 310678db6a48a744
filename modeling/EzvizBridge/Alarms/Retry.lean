import EzvizBridge.Alarms.LongPoll
import EzvizBridge.Alarms.Poller

/-!
# After a failed publication

`sync_serial` remembers the fetched ids only after every alias has committed them, "so a failed
publish is retried instead of being treated as already known". But the ids in the histories are
known as well, and `insert` has put the alarms into the history by the time it writes the file. If
the write fails, the next cycle finds them known: nothing is published again, the file stays behind,
and nobody is woken.

So a failed `insert` never leaves the history as it was (`failed_publish_retried_iff`). What is left
is that nothing of this happens as long as the files can be written: the file and the memory then
agree after every step of the poller, and nobody waits in vain.
-/

namespace EzvizBridge

namespace Alarms

open Recordings (Persist)

namespace CameraHistory

variable {self : CameraHistory} {batch : List Incoming} {live : Bool} {persist : Persist}

/-- The memory is as before. -/
def Untouched (earlier later : CameraHistory) : Prop :=
  later.events = earlier.events ∧ later.index = earlier.index ∧ later.head = earlier.head ∧
    later.floor = earlier.floor

instance (earlier later : CameraHistory) : Decidable (Untouched earlier later) :=
  inferInstanceAs (Decidable (_ ∧ _ ∧ _ ∧ _))

/-- No alarm of the batch is accepted by the history as it stands. -/
def Refuses (history : CameraHistory) (batch : List Incoming) : Prop :=
  ∀ incoming ∈ batch, history.accepts incoming.record = false

/-- Nothing is appended if nothing is accepted. -/
theorem appended_eq_nil_iff : self.appended batch = [] ↔ self.Refuses batch := by
  induction batch with
  | nil => exact ⟨fun _ _ h => absurd h List.not_mem_nil, fun _ => rfl⟩
  | cons incoming batch ih =>
    rw [appended, Refuses, List.forall_mem_cons]
    split_ifs with haccepts
    · rw [haccepts]
      constructor
      · rintro ⟨⟩
      · rintro ⟨⟨⟩, -⟩
    · rw [Bool.not_eq_true] at haccepts
      rw [ih, and_iff_right haccepts, Refuses]

/-- `insert` fails exactly if something is accepted and the file cannot be written. -/
theorem insert_fails_iff :
    (∃ error, (self.insert batch live persist).1 = .error error) ↔
      ¬ (persist = .ok ∨ self.Refuses batch) := by
  rw [insert_error_iff, ← appended_eq_nil_iff]
  tauto

/-- A failed `insert` changes the history. -/
theorem touched_of_fails (h : ∃ error, (self.insert batch live persist).1 = .error error) :
    ¬ Untouched self (self.insert batch live persist).2 := by
  rintro ⟨-, -, hhead, -⟩
  have hnonempty := List.length_pos_iff.mpr (insert_error_iff.mp h).1
  rw [insert_head] at hhead
  omega

/-! ### The file and the memory -/

/-- The pictures are within the budget, or there are none. -/
def Enforced (pictureBudget : ℕ) (events : List Entry) : Prop :=
  (events.map (·.record.pictureBytes)).sum ≤ pictureBudget ∨
    ∀ e ∈ events, e.record.hasPicture = false

/-- The file holds what the memory holds, and no picture is left to be dropped. -/
structure Saved (history : CameraHistory) : Prop where
  file : history.file = some history.historyFile
  enforced : Enforced history.pictureBudget history.events

/-- Within the budget nothing is dropped. -/
theorem dropPictures_eq {budget total : ℕ} {events : List Entry} {pictures : Finset String}
    (h : total ≤ budget ∨ ∀ e ∈ events, e.record.hasPicture = false) :
    (dropPictures budget total events pictures).1 = events := by
  -- on the entries
  induction events generalizing total with
  | nil => rfl
  | cons e events ih =>
    rw [dropPictures]
    split_ifs with hwithin hpicture
    · rfl
    · rw [(h.resolve_left hwithin) e List.mem_cons_self] at hpicture
      cases hpicture
    · dsimp only
      rw [ih (.inr fun e he => (h.resolve_left hwithin) e (List.mem_cons_of_mem _ he))]

/-- What is left after dropping; `kept` are the bytes that were counted before and stay. -/
theorem enforced_dropPictures (budget kept : ℕ) (events : List Entry) (pictures : Finset String) :
    let after :=
      (dropPictures budget (kept + (events.map (·.record.pictureBytes)).sum) events pictures).1
    kept + (after.map (·.record.pictureBytes)).sum ≤ budget ∨
      ∀ e ∈ after, e.record.hasPicture = false := by
  -- on the entries, with the bytes that stay
  induction events generalizing kept pictures with
  | nil => exact .inr fun _ he => absurd he List.not_mem_nil
  | cons e events ih =>
    rw [List.map_cons, List.sum_cons, dropPictures]
    split_ifs with hwithin hpicture
    · exact .inl hwithin
    · have hrest : kept + (e.record.pictureBytes + (events.map (·.record.pictureBytes)).sum) -
          e.record.pictureBytes = kept + (events.map (·.record.pictureBytes)).sum := by
        omega
      dsimp only
      rw [hrest, List.map_cons, List.sum_cons]
      -- its picture is dropped, or there is none to drop
      refine (ih kept (PictureDir.remove pictures e.record.id)).imp (fun h => ?_) fun h => ?_
      · have hnone : ({ e with record := e.record.bare } : Entry).record.pictureBytes = 0 := rfl
        omega
      · exact List.forall_mem_cons.mpr ⟨rfl, h⟩
    · dsimp only
      rw [← Nat.add_assoc, List.map_cons, List.sum_cons]
      refine (ih (kept + e.record.pictureBytes) pictures).imp (fun h => ?_) fun h => ?_
      · omega
      · exact List.forall_mem_cons.mpr ⟨Bool.not_eq_true _ ▸ hpicture, h⟩

theorem enforced_enforce (self : CameraHistory) :
    Enforced self.enforcePictureBudget.1.pictureBudget self.enforcePictureBudget.1.events := by
  have h := enforced_dropPictures self.pictureBudget 0 self.events self.pictures
  simp only [Nat.zero_add] at h
  exact h

/-- The loop accepts nothing. -/
theorem insertAll_of_refuses (h : self.Refuses batch) : self.insertAll batch = (self, {}) := by
  induction batch with
  | nil => rfl
  | cons incoming batch ih =>
    obtain ⟨hincoming, hbatch⟩ := List.forall_mem_cons.mp h
    rw [CameraHistory.insertAll, hincoming]
    exact ih hbatch

/-- The end of `insert` does not touch the records, if the budget was enforced before. -/
theorem Saved.conclude (h : self.Saved) : (self.conclude live).Saved := by
  obtain ⟨hfile, henforced⟩ := h
  -- the budget was enforced, so nothing is dropped now
  have hevents : (self.conclude live).events = self.events := by
    cases live
    · exact dropPictures_eq henforced
    · exact dropPictures_eq henforced
  have hfields : (self.conclude live).file = self.file ∧
      (self.conclude live).binding = self.binding ∧
      (self.conclude live).pictureBudget = self.pictureBudget := by
    cases live <;> exact ⟨rfl, rfl, rfl⟩
  refine ⟨?_, ?_⟩
  · rw [hfields.1, hfile, historyFile, historyFile, hevents, hfields.2.1]
  · rw [hevents, hfields.2.2]
    exact henforced

/-- A publication that does not fail keeps the file in step with the memory. -/
theorem Saved.insert (h : self.Saved) (hcareful : persist = .ok ∨ self.Refuses batch) :
    (self.insert batch live persist).2.Saved := by
  rw [insert_eq]
  split_ifs with hinserted
  · -- something was accepted, so it was written
    have hok : persist = .ok := by
      refine hcareful.resolve_right fun hrefuses => ?_
      rw [insertAll_of_refuses hrefuses] at hinserted
      exact absurd hinserted (Nat.lt_irrefl 0)
    subst hok
    refine ⟨rfl, ?_⟩
    cases live
    · exact enforced_enforce
        { (self.insertAll batch).1 with floor := (self.insertAll batch).1.head }
    · exact enforced_enforce (self.insertAll batch).1
  · have hrefuses : self.Refuses batch := by
      rw [(self.insertAll_counts batch).2, Nat.not_lt, Nat.le_zero] at hinserted
      exact appended_eq_nil_iff.mp (List.length_eq_zero_iff.mp hinserted)
    rw [insertAll_of_refuses hrefuses]
    exact h.conclude

end CameraHistory

/-! ### The poller, as long as nothing fails -/

namespace CameraSlot

variable {self : CameraSlot} {batch : List Incoming} {live : Bool} {persist : Persist}

/-- A publication that does not fail is a new version. -/
theorem publish_version_of_careful (h : persist = .ok ∨ self.history.Refuses batch) :
    (self.publish batch live persist).2.version = self.version + 1 := by
  unfold publish
  split
  · rfl
  · rename_i error history heq
    have hfails : ∃ error, (self.history.insert batch live persist).1 = .error error :=
      ⟨error, by rw [heq]⟩
    exact absurd h (CameraHistory.insert_fails_iff.mp hfails)

end CameraSlot

namespace PollerTask

open EventSystem (run Steps run_invariant)

variable {self next : PollerTask} {camera : String}

/-- The step is not a publication of something acceptable whose file cannot be written. -/
def Careful (self : PollerTask) (event : PollEvent) : Prop :=
  match event, self.phase with
  | .camera world, .publishing _ _ _ _ _ result (camera :: _) =>
    world.persist = .ok ∨
      (self.poller.feed.slots camera.1).history.Refuses
        (withPictures world (mine camera.2 result.messages))
  | _, _ => True

/-- A step that changes a slot publishes to it. -/
theorem step_slots {event : PollEvent} (h : self.step event = some next) :
    next.poller.feed.slots = self.poller.feed.slots ∨
      ∃ world summary groups serial current live result published cameras,
        event = .camera world ∧
        self.phase = .publishing summary groups serial current live result (published :: cameras) ∧
        next.poller.feed.slots =
          Function.update self.poller.feed.slots published.1
            ((self.poller.feed.slots published.1).publish
              (withPictures world (mine published.2 result.messages)) live world.persist).2 := by
  -- only the camera of a publication is touched
  cases event with
  | summary answer =>
    unfold step at h
    dsimp only at h
    split at h
    · split at h
      · obtain rfl := Option.some.inj h
        exact .inl rfl
      · obtain rfl := Option.some.inj h
        exact .inl rfl
    · exact nomatch h
  | serial clock list =>
    unfold step at h
    dsimp only at h
    split at h
    · obtain rfl := Option.some.inj h
      left
      unfold serial
      dsimp only
      split_ifs
      · rfl
      · split <;> rfl
    · exact nomatch h
  | camera world =>
    unfold step at h
    dsimp only at h
    split at h
    · rename_i summary groups serial current live result published cameras hphase
      have hslots : next.poller.feed.slots =
          (publishCamera self.poller.feed result live published world).2.slots := by
        split at h
        · rename_i heq
          obtain rfl := Option.some.inj h
          rw [heq]
        · rename_i heq
          obtain rfl := Option.some.inj h
          rw [heq]
      rw [hslots]
      refine (publishCamera_cases self.poller.feed result live published world).2.imp And.right ?_
      exact fun hpublished => ⟨world, summary, groups, serial, current, live, result, published,
        cameras, rfl, hphase, hpublished⟩
    · exact nomatch h
  | leave =>
    unfold step at h
    dsimp only at h
    split at h
    · obtain rfl := Option.some.inj h
      exact .inl rfl
    · obtain rfl := Option.some.inj h
      exact .inl rfl
    · exact nomatch h

/-- The file of a camera holds what its memory holds, and a call is attentive. -/
def Consistent (camera : String) (call : BatchCall) (task : PollerTask) : Prop :=
  (task.poller.feed.slots camera).history.Saved ∧ call.Attentive (task.poller.feed.slots camera)

/-- A careful step keeps file and memory together, and the reader awake. -/
theorem Consistent.step {call : BatchCall} {event : PollEvent} (h : Consistent camera call self)
    (hcareful : self.Careful event) (hs : self.step event = some next) :
    Consistent camera call next := by
  obtain hslots | ⟨world, summary, groups, serial, current, live, result, published, cameras, rfl,
    hphase, hslots⟩ := step_slots hs
  · unfold Consistent
    rw [hslots]
    exact h
  · unfold Careful at hcareful
    rw [hphase] at hcareful
    dsimp only at hcareful
    unfold Consistent
    rw [hslots]
    -- this camera, or another one
    by_cases heq : camera = published.1
    · subst heq
      rw [Function.update_self]
      refine ⟨?_, h.2.publish (CameraSlot.publish_version_of_careful hcareful)⟩
      rw [CameraSlot.publish_history]
      exact h.1.insert hcareful
    · rw [Function.update_of_ne heq]
      exact h

/-- **When a failed publication can be retried.** `insert` leaves the memory as it was in case of an
error exactly if there is no error: if the file can be written, or nothing of the batch is accepted.
In every run of the poller in which all publications are like this, a file that agrees with the
memory goes on to do so, and a call that waits while there is an alarm for it has been notified. -/
theorem failed_publish_retried_iff {start s : PollerTask} {events : List PollEvent}
    {call : BatchCall} (hsteps : Steps step Careful start events)
    (hrun : run step start events = some s)
    (hsaved : (start.poller.feed.slots camera).history.Saved)
    (hcall : call.Attentive (start.poller.feed.slots camera)) :
    (∀ (history : CameraHistory) (batch : List Incoming) (live : Bool) (persist : Persist),
      ((∃ error, (history.insert batch live persist).1 = .error error) →
          CameraHistory.Untouched history (history.insert batch live persist).2) ↔
        persist = .ok ∨ history.Refuses batch) ∧
    (s.poller.feed.slots camera).history.file =
      some (s.poller.feed.slots camera).history.historyFile ∧
    ∀ next, call.phase = .parked next →
      (s.poller.feed.slots camera).history.Pending call.after →
      call.seen ≠ (s.poller.feed.slots camera).version := by
  have hconsistent : Consistent camera call s :=
    run_invariant (Consistent camera call) (fun _ _ _ h hok hs => h.step hok hs) ⟨hsaved, hcall⟩
      hsteps hrun
  -- the exact condition, the file, and the reader
  refine ⟨fun history batch live persist => ⟨fun h => ?_, fun hcareful hfails => ?_⟩,
    hconsistent.1.file, fun next hphase hpending hseen => ?_⟩
  · by_contra hcareless
    have hfails : ∃ error, (history.insert batch live persist).1 = .error error :=
      CameraHistory.insert_fails_iff.mpr hcareless
    exact CameraHistory.touched_of_fails hfails (h hfails)
  · exact absurd hcareful (CameraHistory.insert_fails_iff.mp hfails)
  · have hattentive := hconsistent.2.2
    rw [hphase] at hattentive
    exact hattentive hseen hpending

end PollerTask

/-! ### A disk that is full for a moment -/

namespace AlarmPoller

/-- One camera without a history. -/
def onlyFront : AlarmPoller :=
  { feed := AlarmFeed.load [("front", { serial := "CAM1", channel := 1 })] (by decide) (fun _ => {})
      (·.serial) ⟨2, 0⟩ }

theorem isToken_lostMessage : isToken "m1" = true := by decide

/-- The alarm that is lost. -/
def lostMessage : ParsedMessage :=
  { record := { id := "m1", occurredAt := 60 }, channel := some 1, timeMs := some 60000,
    token := isToken_lostMessage }

/-- A cycle in which the list of the device is always this page. -/
def onePage (messages : List ParsedMessage) (persist : Persist) : Surroundings :=
  { summary := .ok
      [{ serial := "CAM1", total := messages.length, topId := none, utcOffset := some 0 }]
    clock := fun _ => { now := 90 }
    list := fun _ _ _ _ => .ok { messages, hasNext := false }
    world := fun _ => { persist } }

/-- The device is primed while it has no alarms; there is nothing in the file, as in the memory. -/
def primedFront : AlarmPoller := (onlyFront.cycle (onePage [] .ok)).2

/-- The alarm arrives while the disk is full. -/
def failedFront : Bool × AlarmPoller :=
  primedFront.cycle (onePage [lostMessage] (.failed false "No space left on device"))

/-- The next cycle, with a disk that can be written. -/
def retriedFront : Bool × AlarmPoller := failedFront.2.cycle (onePage [lostMessage] .ok)

/-- A call that waits from the beginning. -/
def waitingCall : BatchCall := { after := 0, seen := 0, phase := .parked 0 }

end AlarmPoller

namespace PollerTask

open AlarmPoller
open EventSystem (run Steps)

/-- The alarm has been published, and the call that waits is behind it. -/
def publishedTask : PollerTask := { poller := (primedFront.cycle (onePage [lostMessage] .ok)).2 }

/-- A call that waits after the first alarm. -/
def nextCall : BatchCall := { after := 1, seen := 1, phase := .parked 1 }

def nextMessage : ParsedMessage :=
  { record := { id := "m2", occurredAt := 70 }, channel := some 1, timeMs := some 70000,
    token := by decide }

/-- A cycle with the second alarm. -/
def nextCycle : List PollEvent :=
  [.summary (.ok [{ serial := "CAM1", total := 2, topId := none, utcOffset := none }]),
    .serial { now := 100 } fun _ _ _ => .ok ⟨[nextMessage], false⟩, .camera {}, .leave, .leave]

/-- Every step of the next cycle is careful. -/
theorem careful_nextCycle : ∀ event ∈ nextCycle, ∀ task : PollerTask, task.Careful event := by
  intro event hevent task
  simp only [nextCycle, List.mem_cons, List.not_mem_nil, or_false] at hevent
  rcases hevent with rfl | rfl | rfl | rfl | rfl
  · trivial
  · trivial
  · -- the file can be written
    unfold Careful
    split
    · rename_i heq _
      obtain rfl := PollEvent.camera.inj heq
      exact .inl rfl
    · trivial
  · trivial
  · trivial

/-- The next cycle, in which the file can be written. -/
theorem failed_publish_retried_iff_sample :
    ∃ s, run step publishedTask nextCycle = some s ∧
      (s.poller.feed.slots "front").history.file =
        some (s.poller.feed.slots "front").history.historyFile ∧
      nextCall.seen ≠ (s.poller.feed.slots "front").version := by
  have hsome : (run step publishedTask nextCycle).isSome = true := by decide +kernel
  obtain ⟨s, hs⟩ := Option.isSome_iff_exists.mp hsome
  have hpending : ∀ t ∈ run step publishedTask nextCycle,
      (t.poller.feed.slots "front").history.Pending nextCall.after := by
    decide +kernel
  have hsaved : (publishedTask.poller.feed.slots "front").history.Saved :=
    ⟨by decide +kernel, .inl (by decide +kernel)⟩
  have hcall : nextCall.Attentive (publishedTask.poller.feed.slots "front") :=
    ⟨by decide +kernel, fun _ => by decide +kernel⟩
  obtain ⟨-, hfile, hnotified⟩ := failed_publish_retried_iff
    (Steps.of_forall careful_nextCycle) hs hsaved hcall
  exact ⟨s, hs, hfile, hnotified 1 rfl (hpending s hs)⟩

/-- **A failed publication is forgotten.** The alarm is in the memory although `insert` has failed.
The next cycle succeeds, and still the alarm is not in the file, and the call that waits for it has
not been notified. -/
theorem failed_publish_forgotten :
    (∃ error, ((primedFront.feed.slots "front").history.insert
        (withPictures {} [lostMessage]) true (.failed false "No space left on device")).1 =
      .error error) ∧
    ¬ CameraHistory.Untouched (primedFront.feed.slots "front").history
      ((primedFront.feed.slots "front").history.insert (withPictures {} [lostMessage]) true
        (.failed false "No space left on device")).2 ∧
    failedFront.1 = true ∧ retriedFront.1 = false ∧
    (retriedFront.2.feed.slots "front").history.file ≠
      some (retriedFront.2.feed.slots "front").history.historyFile ∧
    (retriedFront.2.feed.slots "front").history.Pending waitingCall.after ∧
    waitingCall.seen = (retriedFront.2.feed.slots "front").version := by
  refine ⟨⟨.io "No space left on device", by decide +kernel⟩, by decide +kernel⟩

end PollerTask

end Alarms

end EzvizBridge
