import EzvizBridge.Alarms.Feed
import EzvizBridge.Lib.EventSystem

/-!
# Waiting for alarms

`AlarmFeed::batch` with a cursor subscribes to the channel, reads the history under the lock, and
waits for a change if there is nothing to answer. Between these steps anything may be published and
any other call may move. A call that waits has read the history after it had marked a version as
seen, and `publish` raises the version while it still holds the lock: so if the call has seen the
current version, then what it has read is what is there (`Attentive`).
-/

namespace EzvizBridge

namespace Alarms

open Recordings (Persist)

/-! ### One call -/

/-- Why a call has returned. -/
inductive Reason
  /-- there was something to answer -/
  | answered
  | deadline
  | shutdown
  deriving DecidableEq, Repr

/-- Where a call of `batch` stands. -/
inductive CallPhase
  /-- at the start of the loop -/
  | reading
  /-- in `select!`, with the cursor that was read -/
  | parked (next : ℕ)
  | returned (batch : AlarmBatch) (reason : Reason)
  deriving DecidableEq, Repr

/-- A call of `batch` with a cursor; `seen` is the version that its receiver has seen. -/
structure BatchCall where
  after : ℕ
  seen : ℕ
  phase : CallPhase := .reading
  deriving DecidableEq, Repr

/-- The call subscribes. -/
def CameraSlot.subscribe (self : CameraSlot) (after : ℕ) : BatchCall :=
  { after, seen := self.version }

namespace BatchCall

/-- The history is read; `late` says that the deadline has passed. -/
def read (self : BatchCall) (slot : CameraSlot) (late : Bool) : Option BatchCall :=
  match self.phase with
  | .reading =>
    let (events, next) := slot.history.after self.after maxBatch
    some { self with
      phase :=
        if events ≠ [] ∨ next < self.after then .returned (envelope next events none) .answered
        else if late then .returned (envelope next events none) .deadline
        else .parked next }
  | _ => none

/-- `changed` returns. -/
def wake (self : BatchCall) (slot : CameraSlot) : Option BatchCall :=
  match self.phase with
  | .parked _ =>
    if slot.version ≠ self.seen then some { self with seen := slot.version, phase := .reading }
    else none
  | _ => none

/-- The wait ends by the deadline or the shutdown. -/
def giveUp (self : BatchCall) (reason : Reason) : Option BatchCall :=
  match self.phase with
  | .parked next => some { self with phase := .returned (envelope next [] none) reason }
  | _ => none

end BatchCall

/-! ### All calls on one camera -/

/-- The slot of a camera and the calls on it. -/
structure Listening where
  slot : CameraSlot
  calls : ℕ → Option BatchCall := fun _ => none

/-- What may happen next. Publishing succeeds. -/
inductive ListenEvent
  | publish (batch : List Incoming) (live : Bool)
  | subscribe (call after : ℕ)
  | read (call : ℕ) (late : Bool)
  | wake (call : ℕ)
  | deadline (call : ℕ)
  | shutdown (call : ℕ)
  deriving DecidableEq, Repr

namespace Listening

/-- A call has moved on. -/
def set (self : Listening) (call : ℕ) (moved : BatchCall) : Listening :=
  { self with calls := Function.update self.calls call (some moved) }

/-- One step. -/
def step (self : Listening) : ListenEvent → Option Listening
  | .publish batch live => some { self with slot := (self.slot.publish batch live .ok).2 }
  | .subscribe call after =>
    if self.calls call = none then some (self.set call (self.slot.subscribe after)) else none
  | .read call late => do
    let waiting ← self.calls call
    return self.set call (← waiting.read self.slot late)
  | .wake call => do
    let waiting ← self.calls call
    return self.set call (← waiting.wake self.slot)
  | .deadline call => do
    let waiting ← self.calls call
    return self.set call (← waiting.giveUp .deadline)
  | .shutdown call => do
    let waiting ← self.calls call
    return self.set call (← waiting.giveUp .shutdown)

end Listening

/-! ### What `after` finds -/

namespace CameraHistory

variable {self : CameraHistory} {cursor limit : ℕ}

/-- There is an alarm that a reader with this cursor has not got. -/
def Pending (self : CameraHistory) (cursor : ℕ) : Prop :=
  ∃ e ∈ self.events, max cursor self.floor < e.sequence

instance (self : CameraHistory) (cursor : ℕ) : Decidable (self.Pending cursor) :=
  inferInstanceAs (Decidable (∃ e ∈ self.events, _))

theorem after_eq_of_le (h : cursor ≤ self.head) :
    self.after cursor limit =
      (takenAfter Entry.sequence (max cursor self.floor) limit self.events,
        cursorAfter Entry.sequence (max cursor self.floor)
          (takenAfter Entry.sequence (max cursor self.floor) limit self.events)) := by
  rw [after, if_neg (Nat.not_lt.mpr h)]
  rfl

theorem after_eq_of_lt (h : self.head < cursor) : self.after cursor limit = ([], self.head) := by
  rw [after, if_pos h]

/-- A cursor that is not ahead of the head does not move back. -/
theorem le_after (h : cursor ≤ self.head) : cursor ≤ (self.after cursor limit).2 := by
  rw [after_eq_of_le h]
  exact (Nat.le_max_left _ _).trans cursor_le_cursorAfter

/-- Nothing is answered only if nothing is pending. -/
theorem after_ne_nil (h : self.Indexed) (hlimit : 0 < limit) (hpending : self.Pending cursor) :
    (self.after cursor limit).1 ≠ [] := by
  obtain ⟨e, he, hlt⟩ := hpending
  have hle : cursor ≤ self.head := by
    have := h.window.number_le he
    omega
  rw [after_eq_of_le hle]
  exact takenAfter_ne_nil hlimit he hlt

end CameraHistory

/-! ### Calls are attentive -/

/-- A call that waits and has seen the current version has nothing to answer; what has returned
before its deadline and without a shutdown has an event or a stale cursor. -/
def BatchCall.Attentive (slot : CameraSlot) (call : BatchCall) : Prop :=
  call.seen ≤ slot.version ∧
    match call.phase with
    | .reading => True
    | .parked _ => call.seen = slot.version → ¬ slot.history.Pending call.after
    | .returned batch reason =>
      reason = .answered → batch.events ≠ [] ∨ batch.nextSequence < call.after

namespace BatchCall

variable {slot : CameraSlot} {call moved : BatchCall}

theorem attentive_subscribe (slot : CameraSlot) (after : ℕ) :
    (slot.subscribe after).Attentive slot :=
  ⟨Nat.le_refl _, trivial⟩

theorem Attentive.read {late : Bool} (hslot : slot.Ordered) (h : call.Attentive slot)
    (hmoved : call.read slot late = some moved) : moved.Attentive slot := by
  unfold BatchCall.read at hmoved
  split at hmoved
  · obtain rfl := Option.some.inj hmoved
    refine ⟨h.1, ?_⟩
    dsimp only
    split_ifs with hanswer hlate
    · rintro -
      rcases hanswer with hevents | hstale
      · refine .inl fun hnil => hevents ?_
        exact List.map_eq_nil_iff.mp hnil
      · exact .inr hstale
    · exact nofun
    · -- it has just read that there is nothing
      rintro - hpending
      exact hanswer (.inl (CameraHistory.after_ne_nil hslot.indexed (by decide) hpending))
  · exact nomatch hmoved

theorem Attentive.wake (hmoved : call.wake slot = some moved) : moved.Attentive slot := by
  unfold BatchCall.wake at hmoved
  split at hmoved
  · split_ifs at hmoved
    obtain rfl := Option.some.inj hmoved
    exact ⟨Nat.le_refl _, trivial⟩
  · exact nomatch hmoved

theorem Attentive.giveUp {reason : Reason} (hreason : reason ≠ .answered) (h : call.Attentive slot)
    (hmoved : call.giveUp reason = some moved) : moved.Attentive slot := by
  unfold BatchCall.giveUp at hmoved
  split at hmoved
  · obtain rfl := Option.some.inj hmoved
    exact ⟨h.1, fun hanswered => absurd hanswered hreason⟩
  · exact nomatch hmoved

/-- A publication that succeeds is a new version. -/
theorem publish_version (slot : CameraSlot) (batch : List Incoming) (live : Bool) :
    (slot.publish batch live .ok).2.version = slot.version + 1 := by
  have hok : ∃ outcome, (slot.history.insert batch live .ok).1 = .ok outcome := by
    rw [CameraHistory.insert_eq]
    split_ifs
    · exact ⟨_, rfl⟩
    · exact ⟨_, rfl⟩
  obtain ⟨outcome, hok⟩ := hok
  unfold CameraSlot.publish
  split
  · rfl
  · rename_i heq
    rw [heq] at hok
    exact nomatch hok

/-- A publication with a new version. -/
theorem Attentive.publish {batch : List Incoming} {live : Bool} {persist : Persist}
    (h : call.Attentive slot)
    (hversion : (slot.publish batch live persist).2.version = slot.version + 1) :
    call.Attentive (slot.publish batch live persist).2 := by
  obtain ⟨hseen, hphase⟩ := h
  unfold Attentive
  rw [hversion]
  refine ⟨by omega, ?_⟩
  cases hcall : call.phase with
  | reading => trivial
  | parked next =>
    intro hsame
    omega
  | returned answer reason =>
    rw [hcall] at hphase
    exact hphase

end BatchCall

namespace Listening

variable {s s' : Listening}

/-- What holds in every reachable state. -/
structure Sound (listening : Listening) : Prop where
  ordered : listening.slot.Ordered
  calls : ∀ id call, listening.calls id = some call → call.Attentive listening.slot

theorem Sound.set {id : ℕ} {moved : BatchCall} (h : s.Sound) (hmoved : moved.Attentive s.slot) :
    (s.set id moved).Sound := by
  refine ⟨h.ordered, fun id' call hcall => ?_⟩
  by_cases heq : id' = id
  · subst heq
    have hsame : (s.set id' moved).calls id' = some moved := Function.update_self ..
    obtain rfl := Option.some.inj (hsame.symm.trans hcall)
    exact hmoved
  · have hother : (s.set id moved).calls id' = s.calls id' := Function.update_of_ne heq ..
    exact h.calls id' call (hother.symm.trans hcall)

/-- A step of one call. -/
theorem Sound.moves {id : ℕ} {f : BatchCall → Option BatchCall} (h : s.Sound)
    (hf : ∀ call moved, call.Attentive s.slot → f call = some moved → moved.Attentive s.slot)
    (hs : (do let waiting ← s.calls id; return s.set id (← f waiting)) = some s') : s'.Sound := by
  obtain ⟨waiting, hwaiting, hs⟩ := Option.bind_eq_some_iff.mp hs
  obtain ⟨moved, hmoved, hs⟩ := Option.bind_eq_some_iff.mp hs
  obtain rfl := Option.some.inj hs
  exact h.set (hf waiting moved (h.calls id waiting hwaiting) hmoved)

theorem sound_step {e : ListenEvent} (h : s.Sound) (hs : s.step e = some s') : s'.Sound := by
  cases e with
  | publish batch live =>
    obtain rfl := Option.some.inj hs
    exact ⟨h.ordered.publish,
      fun id call hcall => (h.calls id call hcall).publish (BatchCall.publish_version _ _ _)⟩
  | subscribe id after =>
    obtain ⟨-, rfl⟩ := EventSystem.guarded hs
    exact h.set (BatchCall.attentive_subscribe s.slot after)
  | read id late => exact h.moves (fun _ _ hcall hmoved => hcall.read h.ordered hmoved) hs
  | wake id => exact h.moves (fun _ _ _ hmoved => BatchCall.Attentive.wake hmoved) hs
  | deadline id =>
    have hreason : Reason.deadline ≠ .answered := nofun
    exact h.moves (fun _ _ hcall hmoved => hcall.giveUp hreason hmoved) hs
  | shutdown id =>
    have hreason : Reason.shutdown ≠ .answered := nofun
    exact h.moves (fun _ _ hcall hmoved => hcall.giveUp hreason hmoved) hs

/-- The camera after the start of the process; nobody listens yet. -/
def start (file : Option HistoryFile) (pictures : Finset String) (binding : String)
    (pictureBudget limit : ℕ) (persist : Persist) : Listening :=
  { slot := CameraSlot.start file pictures binding pictureBudget limit persist }

/-- **No wake-up is lost.** In every reachable state a call that waits while there is an alarm for
it has not seen the current version, so that `changed` returns. A call that has returned before its
deadline and without a shutdown has an event or reports a stale cursor. -/
theorem no_lost_wakeup {file : Option HistoryFile} {pictures : Finset String} {binding : String}
    {pictureBudget limit : ℕ} {persist : Persist} {events : List ListenEvent}
    (hrun : EventSystem.run step (start file pictures binding pictureBudget limit persist) events =
      some s) :
    (∀ id call next, s.calls id = some call → call.phase = .parked next →
      s.slot.history.Pending call.after →
      call.seen ≠ s.slot.version ∧ ∃ s', s.step (.wake id) = some s') ∧
    (∀ id call batch, s.calls id = some call → call.phase = .returned batch .answered →
      batch.events ≠ [] ∨ batch.nextSequence < call.after) := by
  have hstart : (start file pictures binding pictureBudget limit persist).Sound :=
    ⟨CameraSlot.ordered_start file pictures binding pictureBudget limit persist,
      fun _ _ hcall => nomatch hcall⟩
  have h : s.Sound := EventSystem.run_keeps Sound (fun _ _ _ h hs => sound_step h hs) hstart hrun
  refine ⟨fun id call next hcall hphase hpending => ?_, fun id call batch hcall hphase => ?_⟩
  · have hattentive := (h.calls id call hcall).2
    rw [hphase] at hattentive
    have hseen : call.seen ≠ s.slot.version := fun hsame => hattentive hsame hpending
    refine ⟨hseen, s.set id { call with seen := s.slot.version, phase := .reading }, ?_⟩
    have hwake : call.wake s.slot =
        some { call with seen := s.slot.version, phase := .reading } := by
      unfold BatchCall.wake
      rw [hphase]
      exact if_pos hseen.symm
    simp only [step, hcall, hwake, Option.bind_eq_bind, Option.bind_some]
    rfl
  · have hattentive := (h.calls id call hcall).2
    rw [hphase] at hattentive
    exact hattentive rfl

def sampleListening : List ListenEvent :=
  [.subscribe 7 0, .read 7 false, .publish [{ record := { id := "a", occurredAt := 10 } }] true]

theorem no_lost_wakeup_sample :
    ∃ s, EventSystem.run step (start none ∅ "front" 0 2 .ok) sampleListening = some s ∧
      ∃ s', s.step (.wake 7) = some s' := by
  have hsome : (EventSystem.run step (start none ∅ "front" 0 2 .ok) sampleListening).isSome =
      true := by
    decide +kernel
  obtain ⟨s, hs⟩ := Option.isSome_iff_exists.mp hsome
  have hstate : ∀ t ∈ EventSystem.run step (start none ∅ "front" 0 2 .ok) sampleListening,
      t.calls 7 = some { after := 0, seen := 0, phase := .parked 0 } ∧
        ∃ e ∈ t.slot.history.events, max 0 t.slot.history.floor < e.sequence := by
    decide +kernel
  obtain ⟨hcall, hpending⟩ := hstate s hs
  exact ⟨s, hs, ((no_lost_wakeup hs).1 7 _ 0 hcall rfl hpending).2⟩

end Listening

end Alarms

end EzvizBridge
