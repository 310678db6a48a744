import EzvizBridge.Alarms.Inserts
import EzvizBridge.Lib.EventSystem

/-!
# What was evicted and may come back

A full history forgets its oldest alarm, and `predates_full_history` is to keep that alarm out when
the poller offers it again. The only memory of it is the front of the queue, and the queue is in the
order of arrival. So an alarm stays out if the oldest two alarms were in the order of their times
whenever the first of them was evicted (`evicted_stay_out`); if they were not, the evicted alarm is
newer than the new front, and it is accepted again at once (`accepts_evicted`).

`Lifetime` is the history in one process lifetime, with the keys of all alarms that were given a
sequence number.
-/

namespace EzvizBridge

namespace Alarms

open Recordings (Persist)

/-- The history since the process was started, and what was given a sequence number since then. -/
structure Lifetime where
  history : CameraHistory
  taken : List (ℤ ×ₗ String)

def idOf (key : ℤ ×ₗ String) : String := (ofLex key).2

/-- One call of `insert`. -/
structure Insertion where
  batch : List Incoming
  live : Bool := true
  persist : Persist := .ok

/-- The first key comes before the second one, if there are two. -/
def OrderedFront : List (ℤ ×ₗ String) → Prop
  | first :: second :: _ => first < second
  | _ => True

instance : ∀ keys : List (ℤ ×ₗ String), Decidable (OrderedFront keys)
  | [] => isTrue trivial
  | [_] => isTrue trivial
  | first :: second :: _ => inferInstanceAs (Decidable (first < second))

namespace CameraHistory

/-- The keys of the alarms that are kept. -/
def keys (self : CameraHistory) : List (ℤ ×ₗ String) := self.events.map (·.record.key)

/-- The history is full. -/
def Full (self : CameraHistory) : Prop := self.limit ≤ self.events.length

/-- The oldest two alarms are in order. -/
def FrontOrdered (self : CameraHistory) : Prop := OrderedFront self.keys

instance (self : CameraHistory) : Decidable self.Full := inferInstanceAs (Decidable (_ ≤ _))

instance (self : CameraHistory) : Decidable self.FrontOrdered :=
  inferInstanceAs (Decidable (OrderedFront _))

end CameraHistory

namespace Lifetime

/-- A record is offered, in the loop of `insert`. -/
def offer (self : Lifetime) (incoming : Incoming) : Lifetime :=
  if self.history.accepts incoming.record then
    { history := (self.history.take incoming).1, taken := self.taken ++ [incoming.record.key] }
  else self

/-- `insert`, with what is given a number. -/
def step (self : Lifetime) (call : Insertion) : Option Lifetime :=
  some
    { history := (self.history.insert call.batch call.live call.persist).2
      taken := (call.batch.foldl offer self).taken }

/-- A record that is accepted finds the oldest two alarms in order if one of them has to go, and it
is not an alarm that was evicted and has got a later time since. -/
def Orderly (self : Lifetime) (incoming : Incoming) : Prop :=
  self.history.accepts incoming.record = true →
    (self.history.Full → self.history.FrontOrdered) ∧
      ∀ key ∈ self.taken, idOf key ∉ idsOf self.history.events → incoming.record.id = idOf key →
        incoming.record.occurredAt ≤ (ofLex key).1

/-- All records of a batch are. -/
def InOrder : Lifetime → List Incoming → Prop
  | _, [] => True
  | self, incoming :: batch => self.Orderly incoming ∧ InOrder (self.offer incoming) batch

instance (self : Lifetime) (incoming : Incoming) : Decidable (self.Orderly incoming) :=
  inferInstanceAs (Decidable (_ → _ ∧ _))

instance InOrder.decidable :
    ∀ (self : Lifetime) (batch : List Incoming), Decidable (self.InOrder batch)
  | _, [] => isTrue trivial
  | self, incoming :: batch =>
    let _ : Decidable (InOrder (self.offer incoming) batch) := InOrder.decidable _ _
    inferInstanceAs (Decidable (_ ∧ _))

/-- The process is started on the files that are there. -/
def start (file : Option HistoryFile) (pictures : Finset String) (binding : String)
    (pictureBudget limit : ℕ) (persist : Persist) : Lifetime :=
  let history := CameraHistory.load file pictures binding pictureBudget limit persist
  { history, taken := history.keys }

end Lifetime

/-! ### Keys -/

section Keys

variable {self : CameraHistory} {record : AlarmRecord}

/-- The ids of the keys are those of the entries. -/
theorem map_idOf_keys (self : CameraHistory) : self.keys.map idOf = idsOf self.events :=
  List.map_map

theorem length_keys (self : CameraHistory) : self.keys.length = self.events.length :=
  List.length_map _

/-- The oldest alarm of a full history decides. -/
theorem predates_iff {oldest : ℤ ×ₗ String} (hfull : self.Full)
    (hfront : self.keys.head? = some oldest) :
    self.predatesFullHistory record = true ↔ record.key < oldest := by
  unfold CameraHistory.Full at hfull
  rw [CameraHistory.keys, List.head?_map] at hfront
  obtain ⟨e, he, rfl⟩ := Option.map_eq_some_iff.mp hfront
  simp [CameraHistory.predatesFullHistory, hfull, he]

/-- The keys after one more record. -/
theorem keys_take (self : CameraHistory) (incoming : Incoming) :
    (self.take incoming).1.keys =
      (self.keys ++ [incoming.record.key]).drop (self.events.length + 1 - self.limit) := by
  have halarms := (self.take_spec incoming).1
  have hkeys : ∀ history : CameraHistory, history.keys = history.alarms.map (·.record.key) := by
    intro history
    rw [CameraHistory.alarms, List.map_map]
    rfl
  rw [hkeys, halarms, List.map_drop, List.map_append, ← hkeys]
  rfl

/-- The keys after an insert are those after its loop. -/
theorem keys_insert (self : CameraHistory) (batch : List Incoming) (live : Bool)
    (persist : Persist) :
    (self.insert batch live persist).2.keys = (self.insertAll batch).1.keys := by
  -- stripping a picture leaves the key
  have hconclude : ((self.insertAll batch).1.conclude live).keys =
      (self.insertAll batch).1.keys := by
    have hstrip : ∀ e : Entry, (CameraHistory.strip e).record.key = e.record.key := by
      intro e
      exact AlarmRecord.key_eq_of_bare_eq (congrArg Entry.record (CameraHistory.bare_strip e))
    unfold CameraHistory.conclude
    cases live with
    | true => exact CameraHistory.enforce_maps _ hstrip _
    | false => exact CameraHistory.enforce_maps _ hstrip _
  rw [CameraHistory.insert_eq]
  split_ifs
  · obtain ⟨hevents, -⟩ := ((self.insertAll batch).1.conclude live).persist_fields persist
    exact (congrArg (List.map _) hevents).trans hconclude
  · exact hconclude

end Keys

/-! ### What is remembered of the evicted alarms -/

namespace Lifetime

variable {s s' : Lifetime}

/-- Every alarm that was evicted comes before the oldest one that is kept, and the history is full.
No alarm was given two numbers. -/
structure Remembers (lifetime : Lifetime) : Prop where
  indexed : lifetime.history.Indexed
  size : lifetime.history.events.length ≤ lifetime.history.limit
  room : 1 ≤ lifetime.history.limit
  gone : ∃ gone, lifetime.taken = gone ++ lifetime.history.keys ∧
    ∀ key ∈ gone, lifetime.history.Full ∧ ∀ oldest ∈ lifetime.history.keys.head?, key < oldest
  distinct : (lifetime.taken.map idOf).Nodup

/-- An alarm that was evicted is not accepted. -/
theorem Remembers.not_accepts {record : AlarmRecord} {key : ℤ ×ₗ String} (h : s.Remembers)
    (hkey : key ∈ s.taken) (hid : record.id = idOf key)
    (htime : idOf key ∉ idsOf s.history.events → record.occurredAt ≤ (ofLex key).1) :
    s.history.accepts record = false := by
  rw [← Bool.not_eq_true]
  -- otherwise its id would be new, and it late enough
  intro haccepts
  obtain ⟨-, hnew, hlate⟩ := CameraHistory.accepts_iff.mp haccepts
  obtain ⟨gone, htaken, hgone⟩ := h.gone
  have hnot : idOf key ∉ idsOf s.history.events := by
    intro hmem
    rw [← hid] at hmem
    rw [(CameraHistory.knows_iff h.indexed).mpr hmem] at hnew
    exact nomatch hnew
  rw [htaken] at hkey
  rcases List.mem_append.mp hkey with hkey | hkey
  · -- it would come before the oldest alarm
    obtain ⟨hfull, hbefore⟩ := hgone key hkey
    have hpos : s.history.keys ≠ [] := by
      rw [Ne, ← List.length_eq_zero_iff, length_keys]
      have := h.room
      unfold CameraHistory.Full at hfull
      omega
    obtain ⟨oldest, rest, hkeys⟩ := List.exists_cons_of_ne_nil hpos
    have hfront : s.history.keys.head? = some oldest := by rw [hkeys]; rfl
    have hle : record.key ≤ key := by
      rw [AlarmRecord.key, Prod.Lex.le_iff]
      rcases lt_or_eq_of_le (htime hnot) with hlt | heq
      · exact .inl hlt
      · exact .inr ⟨heq, le_of_eq hid⟩
    have hpredates := (predates_iff hfull hfront).mpr (hle.trans_lt (hbefore oldest hfront))
    rw [hpredates] at hlate
    exact nomatch hlate
  · apply hnot
    rw [← map_idOf_keys]
    exact List.mem_map_of_mem hkey

/-- A record that is offered in order keeps the memory. -/
theorem Remembers.offer {incoming : Incoming} (h : s.Remembers) (hok : s.Orderly incoming) :
    (s.offer incoming).Remembers := by
  unfold Lifetime.offer
  -- it is accepted, or nothing happens
  split_ifs with haccepts
  · obtain ⟨hordered, htimes⟩ := hok haccepts
    obtain ⟨-, hnew, hlate⟩ := CameraHistory.accepts_iff.mp haccepts
    obtain ⟨-, hhead, hfloor, hlimit, -⟩ := s.history.take_spec incoming
    have hkeys := keys_take s.history incoming
    have hlength := s.history.take_length incoming
    obtain ⟨gone, htaken, hgone⟩ := h.gone
    have hsize := h.size
    have hroom := h.room
    refine
      { indexed := h.indexed.take haccepts
        size := ?_
        room := ?_
        gone := ?_
        distinct := ?_ }
    · show (s.history.take incoming).1.events.length ≤ (s.history.take incoming).1.limit
      omega
    · show 1 ≤ (s.history.take incoming).1.limit
      omega
    -- the history is full, or there is room
    · by_cases hfull : s.history.Full
      · -- the oldest alarm has to go
        have hdrop : s.history.events.length + 1 - s.history.limit = 1 := by
          unfold CameraHistory.Full at hfull
          omega
        have hpos : s.history.keys ≠ [] := by
          rw [Ne, ← List.length_eq_zero_iff, length_keys]
          unfold CameraHistory.Full at hfull
          omega
        obtain ⟨oldest, rest, hfront⟩ := List.exists_cons_of_ne_nil hpos
        have hhead? : s.history.keys.head? = some oldest := by rw [hfront]; rfl
        rw [hdrop, hfront] at hkeys
        have hkeys' : (s.history.take incoming).1.keys = rest ++ [incoming.record.key] := hkeys
        -- what comes to the front is later than what goes
        have hnext : ∀ first ∈ (rest ++ [incoming.record.key]).head?, oldest < first := by
          intro first hfirst
          cases rest with
          | nil =>
            obtain rfl := Option.some.inj hfirst
            have hle : oldest ≤ incoming.record.key := by
              rw [← not_lt, ← predates_iff hfull hhead?, hlate]
              exact Bool.false_ne_true
            refine lt_of_le_of_ne hle fun heq => ?_
            have hmem : incoming.record.id ∈ idsOf s.history.events := by
              rw [← map_idOf_keys, hfront, heq]
              exact List.mem_cons_self ..
            rw [(CameraHistory.knows_iff h.indexed).mpr hmem] at hnew
            exact nomatch hnew
          | cons second rest =>
            obtain rfl := Option.some.inj hfirst
            have hpair := hordered hfull
            rw [CameraHistory.FrontOrdered, hfront] at hpair
            exact hpair
        have hfull' : (s.history.take incoming).1.Full := by
          unfold CameraHistory.Full at hfull ⊢
          omega
        refine ⟨gone ++ [oldest], ?_, ?_⟩
        · show s.taken ++ [incoming.record.key] =
              gone ++ [oldest] ++ (s.history.take incoming).1.keys
          rw [hkeys', htaken, hfront]
          simp
        · intro key hkey
          refine ⟨hfull', fun first hfirst => ?_⟩
          have hlt := hnext first (hkeys' ▸ hfirst)
          rcases List.mem_append.mp hkey with hkey | hkey
          · exact ((hgone key hkey).2 oldest hhead?).trans hlt
          · exact List.mem_singleton.mp hkey ▸ hlt
      · -- nothing was evicted so far, and nothing is now
        have hdrop : s.history.events.length + 1 - s.history.limit = 0 := by
          unfold CameraHistory.Full at hfull
          omega
        have hnone : gone = [] := by
          rw [List.eq_nil_iff_forall_not_mem]
          exact fun key hkey => hfull (hgone key hkey).1
        rw [hdrop] at hkeys
        refine ⟨[], ?_, fun key hkey => absurd hkey List.not_mem_nil⟩
        show s.taken ++ [incoming.record.key] = (s.history.take incoming).1.keys
        rw [hkeys, htaken, hnone]
        rfl
    -- an id that was taken is not accepted again
    · show ((s.taken ++ [incoming.record.key]).map idOf).Nodup
      rw [List.map_append, List.nodup_append]
      refine ⟨h.distinct, List.nodup_singleton _, ?_⟩
      rintro id hid id' hid' rfl
      obtain ⟨key, hkey, heq⟩ := List.mem_map.mp hid
      have hsame : incoming.record.id = idOf key := (heq.trans (List.mem_singleton.mp hid')).symm
      rw [h.not_accepts hkey hsame fun hnot => htimes key hkey hnot hsame] at haccepts
      exact nomatch haccepts
  · exact h

theorem Remembers.offers {batch : List Incoming} (h : s.Remembers) (hok : s.InOrder batch) :
    (batch.foldl Lifetime.offer s).Remembers := by
  induction batch generalizing s with
  | nil => exact h
  | cons incoming batch ih => exact ih (h.offer hok.1) hok.2

/-- The history after the offers is the one after the loop. -/
theorem history_offers (s : Lifetime) (batch : List Incoming) :
    (batch.foldl Lifetime.offer s).history = (s.history.insertAll batch).1 := by
  induction batch generalizing s with
  | nil => rfl
  | cons incoming batch ih =>
    rw [List.foldl_cons, ih, CameraHistory.insertAll, Lifetime.offer]
    split_ifs <;> rfl

/-- An insert in order keeps the memory. -/
theorem remembers_step {call : Insertion} (h : s.Remembers) (hok : s.InOrder call.batch)
    (hs : s.step call = some s') : s'.Remembers := by
  obtain rfl := Option.some.inj hs
  have hoffers := h.offers hok
  have hkeys := keys_insert s.history call.batch call.live call.persist
  rw [← history_offers s call.batch] at hkeys
  obtain ⟨hindexed, -, -, -, hlimit⟩ :=
    @CameraHistory.insert_spec s.history call.batch call.live call.persist h.indexed h.size
  have hsize := @CameraHistory.length_le_limit_insert s.history call.batch call.live call.persist
    h.indexed h.size
  have hlimit' : (call.batch.foldl Lifetime.offer s).history.limit = s.history.limit := by
    rw [history_offers]
    exact (CameraHistory.insertAll_spec h.indexed h.size).2.2.2.2.1
  -- what is gone is what the offers have evicted
  obtain ⟨gone, htaken, hgone⟩ := hoffers.gone
  refine { indexed := hindexed, size := hsize, room := hlimit.symm ▸ h.room, gone := ⟨gone, ?_, ?_⟩,
           distinct := hoffers.distinct }
  · exact htaken.trans (congrArg (gone ++ ·) hkeys.symm)
  · intro key hkey
    obtain ⟨hfull, hbefore⟩ := hgone key hkey
    refine ⟨?_, fun oldest holdest => hbefore oldest (hkeys ▸ holdest)⟩
    unfold CameraHistory.Full at hfull ⊢
    rw [← length_keys, hlimit'] at hfull
    show (s.history.insert call.batch call.live call.persist).2.limit ≤ _
    rw [hlimit, ← length_keys, hkeys]
    exact hfull

/-- Nothing is gone from a history that was loaded. -/
theorem remembers_start {file : Option HistoryFile} {pictures : Finset String} {binding : String}
    {pictureBudget limit : ℕ} {persist : Persist} (hlimit : 1 ≤ limit) :
    (start file pictures binding pictureBudget limit persist).Remembers := by
  obtain ⟨hindexed, hsize, hlimit', -⟩ :=
    CameraHistory.indexed_load file pictures binding pictureBudget limit persist
  refine { indexed := hindexed, size := hsize.trans_eq hlimit'.symm, room := hlimit'.symm ▸ hlimit,
           gone := ⟨[], rfl, ?_⟩, distinct := ?_ }
  · exact fun key hkey => absurd hkey List.not_mem_nil
  · show ((CameraHistory.load file pictures binding pictureBudget limit persist).keys.map
        idOf).Nodup
    rw [map_idOf_keys]
    exact hindexed.distinct

/-- **An evicted alarm stays out**, and no alarm is given two sequence numbers, in every run in
which the oldest two alarms are in order whenever one of them has to go, and in which no evicted
alarm is offered again with a later time. -/
theorem evicted_stay_out {file : Option HistoryFile} {pictures : Finset String} {binding : String}
    {pictureBudget limit : ℕ} {persist : Persist} {calls : List Insertion} (hlimit : 1 ≤ limit)
    (hok : EventSystem.Steps step (fun s call => s.InOrder call.batch)
      (start file pictures binding pictureBudget limit persist) calls)
    (hrun : EventSystem.run step (start file pictures binding pictureBudget limit persist) calls =
      some s) :
    (s.taken.map idOf).Nodup ∧
      ∀ key ∈ s.taken, idOf key ∉ idsOf s.history.events → ∀ incoming : Incoming,
        incoming.record.id = idOf key → s.Orderly incoming → s.history.accepts incoming.record =
          false := by
  -- the memory holds after the run
  have h : s.Remembers := EventSystem.run_invariant Remembers
    (fun _ _ _ h hok hs => remembers_step h hok hs) (remembers_start hlimit) hok hrun
  refine ⟨h.distinct, fun key hkey hnot incoming hid horderly => ?_⟩
  rw [← Bool.not_eq_true]
  intro haccepts
  have htime := (horderly haccepts).2 key hkey hnot hid
  rw [h.not_accepts hkey hid fun _ => htime] at haccepts
  exact nomatch haccepts

/-- Three alarms go through a history of two, in the order of their times; the first one is offered
again. -/
def sampleInsertions : List Insertion :=
  [{ batch := [{ record := { id := "a", occurredAt := 5 } },
    { record := { id := "b", occurredAt := 10 } }] },
    { batch := [{ record := { id := "c", occurredAt := 20 } },
      { record := { id := "a", occurredAt := 5 } }] }]

/-- Three alarms in order, of which two are kept. -/
theorem evicted_stay_out_sample :
    ∃ s, EventSystem.run step (start none ∅ "front" 0 2 .ok) sampleInsertions = some s ∧
      idsOf s.history.events = ["b", "c"] ∧ (s.taken.map idOf).Nodup := by
  obtain ⟨s, hs, hids⟩ : ∃ s ∈ EventSystem.run step (start none ∅ "front" 0 2 .ok) sampleInsertions,
      idsOf s.history.events = ["b", "c"] := by
    decide +kernel
  have hok : EventSystem.Steps step (fun s call => s.InOrder call.batch)
      (start none ∅ "front" 0 2 .ok) sampleInsertions := by
    decide +kernel
  exact ⟨s, hs, hids, (evicted_stay_out (by decide) hok hs).1⟩

/-- The second alarm arrives late. The first one is evicted while it is the newest of the two, is
offered again, and is given a second number. -/
theorem evicted_comes_back :
    ∃ s ∈ EventSystem.run step (start none ∅ "front" 0 2 .ok)
        [{ batch := [{ record := { id := "a", occurredAt := 10 } }] },
          { batch := [{ record := { id := "b", occurredAt := 5 } }] },
          { batch := [{ record := { id := "c", occurredAt := 20 } }] },
          { batch := [{ record := { id := "a", occurredAt := 10 } }] }],
      s.taken.map idOf = ["a", "b", "c", "a"] ∧ s.history.head = 4 := by
  decide +kernel

end Lifetime

/-- The condition is needed: if the oldest two alarms are not in order, the one that was evicted is
accepted again at once. -/
theorem accepts_evicted {history : CameraHistory} {incoming : Incoming} {evicted : AlarmRecord}
    {second : ℤ ×ₗ String} {rest : List (ℤ ×ₗ String)} (h : history.Indexed)
    (hsize : history.events.length ≤ history.limit)
    (haccepts : history.accepts incoming.record = true) (hfull : history.Full)
    (hfront : history.keys = evicted.key :: second :: rest) (hnot : second < evicted.key)
    (htoken : isToken evicted.id = true) :
    (history.take incoming).1.accepts evicted = true := by
  have hdrop : history.events.length + 1 - history.limit = 1 := by
    unfold CameraHistory.Full at hfull
    omega
  have hkeys := keys_take history incoming
  rw [hdrop, hfront] at hkeys
  have hkeys' : (history.take incoming).1.keys = second :: (rest ++ [incoming.record.key]) := hkeys
  have hindexed := h.take haccepts
  -- it is still full, and its front is later than what went
  have hfull' : (history.take incoming).1.Full := by
    have hlength := history.take_length incoming
    obtain ⟨-, -, -, hlimit, -⟩ := history.take_spec incoming
    unfold CameraHistory.Full at hfull ⊢
    omega
  refine CameraHistory.accepts_iff.mpr ⟨htoken, ?_, ?_⟩
  · -- its id is not among those that are left
    rw [← Bool.not_eq_true, CameraHistory.knows_iff hindexed, ← map_idOf_keys, hkeys']
    have hdistinct := h.distinct
    rw [← map_idOf_keys, hfront] at hdistinct
    obtain ⟨hnew, -⟩ := List.nodup_cons.mp hdistinct
    intro hmem
    rcases List.mem_cons.mp hmem with heq | hmem
    · apply hnew
      rw [show idOf evicted.key = idOf second from heq]
      exact List.mem_cons_self ..
    · rw [List.map_append] at hmem
      rcases List.mem_append.mp hmem with hmem | hmem
      · exact hnew (List.mem_cons_of_mem _ hmem)
      · -- nor is it the id of the new one, which was not known
        obtain ⟨-, hunknown, -⟩ := CameraHistory.accepts_iff.mp haccepts
        have hsame : incoming.record.id = evicted.id := (List.mem_singleton.mp hmem).symm
        have hknown : incoming.record.id ∈ idsOf history.events := by
          rw [hsame, ← map_idOf_keys, hfront]
          exact List.mem_cons_self ..
        rw [(CameraHistory.knows_iff h).mpr hknown] at hunknown
        exact nomatch hunknown
  · rw [← Bool.not_eq_true, predates_iff hfull' (by rw [hkeys']; rfl)]
    exact not_lt.mpr hnot.le

end Alarms

end EzvizBridge
