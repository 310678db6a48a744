import Mathlib.Logic.Relation
import EzvizBridge.Alarms.Inserts

/-!
# The feed of one camera

`AlarmFeed` (`alarms/mod.rs`, `alarms/read.rs`) guards each history with a lock and tells waiting
readers about a change through a `watch` channel. What happens under the lock is one step. The
channel is its version: `send_replace` raises it, `subscribe` marks the version that is current as
seen, and `changed` returns once the version is not the one that was seen last. Nobody reads the
value that is sent.
-/

namespace EzvizBridge

namespace Alarms

open Recordings (Persist)

def maxBatch : ℕ := 50

/-- `AlarmEvent`. -/
structure AlarmEvent where
  sequence : ℕ
  id : String
  occurredAt : ℤ
  alarmType : ℤ
  category : String
  title : String
  hasPicture : Bool
  deriving DecidableEq, Repr

/-- The event of an entry, in `envelope`. -/
def Entry.event (self : Entry) : AlarmEvent :=
  { sequence := self.sequence
    id := self.record.id
    occurredAt := self.record.occurredAt
    alarmType := self.record.alarmType
    category := self.record.category
    title := self.record.title
    hasPicture := self.record.hasPicture }

/-- `AlarmBatch`; the camera and the generation are the same in all of them. -/
structure AlarmBatch where
  nextSequence : ℕ
  events : List AlarmEvent
  older : Option ℕ := none
  deriving DecidableEq, Repr

def envelope (next : ℕ) (events : List Entry) (older : Option ℕ) : AlarmBatch :=
  { nextSequence := next, events := events.map Entry.event, older }

/-- `CameraSlot`. -/
structure CameraSlot where
  history : CameraHistory
  version : ℕ := 0
  deriving DecidableEq

namespace CameraSlot

/-- `AlarmFeed::publish`: the result, and the slot after it. -/
def publish (self : CameraSlot) (batch : List Incoming) (live : Bool) (persist : Persist) :
    Except BridgeError InsertOutcome × CameraSlot :=
  match self.history.insert batch live persist with
  | (.ok outcome, history) => (.ok outcome, { history, version := self.version + 1 })
  | (.error error, history) => (.error error, { self with history })

/-- `AlarmFeed::batch` without a cursor. -/
def recentBatch (self : CameraSlot) : AlarmBatch :=
  let (events, older) := self.history.page none maxBatch
  envelope self.history.head events older

/-- `AlarmFeed::history`. -/
def historyBatch (self : CameraSlot) (before : ℕ) : AlarmBatch :=
  let (events, older) := self.history.page (some before) maxBatch
  envelope self.history.head events older

/-- The history of the slot is in order. -/
structure Ordered (slot : CameraSlot) : Prop where
  indexed : slot.history.Indexed
  size : slot.history.events.length ≤ slot.history.limit

variable {self : CameraSlot}

theorem publish_history (self : CameraSlot) (batch : List Incoming) (live : Bool)
    (persist : Persist) :
    (self.publish batch live persist).2.history = (self.history.insert batch live persist).2 := by
  unfold publish
  split
  · rename_i heq
    rw [heq]
  · rename_i heq
    rw [heq]

theorem Ordered.publish {batch : List Incoming} {live : Bool} {persist : Persist}
    (h : self.Ordered) :
    (self.publish batch live persist).2.Ordered := by
  refine ⟨?_, ?_⟩
  · rw [publish_history]
    exact (CameraHistory.insert_spec h.indexed h.size).1
  · rw [publish_history]
    exact CameraHistory.length_le_limit_insert h.indexed h.size

/-- The slot after the start of the process. -/
def start (file : Option HistoryFile) (pictures : Finset String) (binding : String)
    (pictureBudget limit : ℕ) (persist : Persist) : CameraSlot :=
  { history := CameraHistory.load file pictures binding pictureBudget limit persist }

theorem ordered_start (file : Option HistoryFile) (pictures : Finset String) (binding : String)
    (pictureBudget limit : ℕ) (persist : Persist) :
    (start file pictures binding pictureBudget limit persist).Ordered := by
  obtain ⟨hindexed, hsize, hlimit, -⟩ :=
    CameraHistory.indexed_load file pictures binding pictureBudget limit persist
  exact ⟨hindexed, hsize.trans_eq hlimit.symm⟩

/-! ### Whatever is published in between -/

/-- One batch is published, with any result. -/
def Publishes (earlier later : CameraSlot) : Prop :=
  ∃ batch live persist, later = (earlier.publish batch live persist).2

/-- Any number of batches is published. -/
def Evolves : CameraSlot → CameraSlot → Prop := Relation.ReflTransGen Publishes

theorem Evolves.spec {later : CameraSlot} (h : Evolves self later) (hordered : self.Ordered) :
    later.Ordered ∧ CameraHistory.Grows self.history later.history := by
  induction h with
  | refl => exact ⟨hordered, CameraHistory.Grows.refl _⟩
  | tail hsteps hstep ih =>
    obtain ⟨hmid, hgrows⟩ := ih
    obtain ⟨batch, live, persist, rfl⟩ := hstep
    refine ⟨hmid.publish, hgrows.trans ?_⟩
    rw [publish_history]
    exact CameraHistory.grows_insert hmid.indexed hmid.size

end CameraSlot

end Alarms

end EzvizBridge
