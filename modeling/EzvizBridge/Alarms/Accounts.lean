import EzvizBridge.Alarms.LongPoll

/-!
# What a reader gets

A reader of a camera follows it by its cursor. Its account keeps what has been inserted for it since
it knows its cursor (`due`), what it has been given (`received`), and what was evicted before its
cursor got there (`missed`). Nothing in the program looks at the account.

`Extends` is what a publication does to the history as far as a reader can tell. Everything else
here follows from it: the account stays `Fair`, and an answer that was read earlier stays a fair
`Answer`.
-/

namespace EzvizBridge

namespace Alarms

open Recordings (Persist)

/-- The event without its picture. -/
def AlarmEvent.bare (self : AlarmEvent) : AlarmEvent := { self with hasPicture := false }

/-! ### Publications -/

namespace CameraHistory

variable {earlier later : CameraHistory} {fresh : List Entry}

/-- A publication, seen by a reader; `fresh` are the alarms that are new. -/
structure Extends (earlier later : CameraHistory) (fresh : List Entry) : Prop where
  head : earlier.head ≤ later.head
  level : earlier.floor ≤ earlier.head
  /-- the floor is raised only while there is nothing above it -/
  floor : later.floor = earlier.floor ∨
    (earlier.floor = earlier.head ∧ later.floor = later.head ∧ fresh = [])
  numbers : ∀ e ∈ fresh, earlier.head < e.sequence ∧ e.sequence ≤ later.head
  ascending : fresh.Pairwise fun e e' => e.sequence < e'.sequence
  bound : ∀ e ∈ later.alarms, e.sequence ≤ later.head
  /-- what is above the floor was there or is new -/
  origin : ∀ e ∈ later.alarms, later.floor < e.sequence → e ∈ earlier.alarms ∨ e ∈ fresh

theorem Indexed.alarms_le (h : later.Indexed) : ∀ e ∈ later.alarms, e.sequence ≤ later.head := by
  intro e he
  obtain ⟨x, hx, rfl⟩ := List.mem_map.mp he
  have hle : x.sequence ≤ later.head := h.window.number_le hx
  exact hle

/-- Nothing is published. -/
theorem Extends.refl (h : earlier.Indexed) : Extends earlier earlier [] :=
  { head := Nat.le_refl _
    level := h.floor
    floor := .inl rfl
    numbers := fun _ he => absurd he List.not_mem_nil
    ascending := .nil
    bound := h.alarms_le
    origin := fun _ he _ => .inl he }

/-- The new numbers ascend. -/
theorem appended_ascending (self : CameraHistory) (batch : List Incoming) :
    (self.appended batch).Pairwise fun e e' => e.sequence < e'.sequence := by
  induction batch generalizing self with
  | nil => exact .nil
  | cons incoming batch ih =>
    rw [appended]
    split_ifs
    · refine List.pairwise_cons.mpr ⟨fun e he => ?_, ih _⟩
      have hlt := lt_of_mem_appended he
      rw [(self.take_spec incoming).2.1] at hlt
      exact hlt
    · exact ih self

/-- The new numbers are below the new head. -/
theorem le_of_mem_appended {self : CameraHistory} {batch : List Incoming} {e : Entry}
    (he : e ∈ self.appended batch) :
    e.sequence ≤ self.head + (self.appended batch).length := by
  -- on the batch
  induction batch generalizing self with
  | nil => exact absurd he List.not_mem_nil
  | cons incoming batch ih =>
    rw [appended] at he ⊢
    split_ifs at he ⊢
    · rw [List.length_cons]
      rcases List.mem_cons.mp he with rfl | he
      · dsimp only
        omega
      · have hle := ih he
        rw [(self.take_spec incoming).2.1] at hle
        omega
    · exact ih he

/-- The alarms of a batch that are new to the readers. -/
def newAlarms (self : CameraHistory) (batch : List Incoming) (live : Bool) : List Entry :=
  if live then self.appended batch else []

/-- `insert` is a publication, if it primes only a history in which nothing is new. -/
theorem extends_insert {self : CameraHistory} {batch : List Incoming} {live : Bool}
    {persist : Persist} (h : self.Indexed) (hsize : self.events.length ≤ self.limit)
    (hlive : live = false → self.floor = self.head) :
    Extends self (self.insert batch live persist).2 (self.newAlarms batch live) := by
  obtain ⟨hindexed, halarms, hhead, hfloor, -⟩ := @insert_spec self batch live persist h hsize
  unfold newAlarms
  -- a live batch, or the priming
  cases live with
  | true =>
    refine { head := by omega, level := h.floor, floor := .inl hfloor, numbers := fun e he => ?_,
             ascending := self.appended_ascending batch, bound := hindexed.alarms_le,
             origin := fun e he _ => ?_ }
    · exact ⟨lt_of_mem_appended he, hhead ▸ le_of_mem_appended he⟩
    · rw [halarms] at he
      exact List.mem_append.mp (List.mem_of_mem_drop he)
  | false =>
    have hraised : (self.insert batch false persist).2.floor =
        (self.insert batch false persist).2.head := hfloor.trans hhead.symm
    refine { head := by omega, level := h.floor, floor := .inr ⟨hlive rfl, hraised, rfl⟩,
             numbers := fun e he => absurd he List.not_mem_nil, ascending := .nil,
             bound := hindexed.alarms_le, origin := fun e he hlt => ?_ }
    have := hindexed.alarms_le e he
    omega

end CameraHistory

/-! ### Accounts -/

/-- The account of a reader. -/
structure Account where
  received : List AlarmEvent := []
  due : List Entry := []
  missed : List Entry := []
  deriving DecidableEq, Repr

namespace Account

/-- The account of a reader that starts from this cursor: what is new behind it is due. -/
def opened (history : CameraHistory) (cursor : ℕ) : Account :=
  { due := history.alarms.filter fun e => max cursor history.floor < e.sequence }

/-- New alarms were published; `history` is the state after that. -/
def observe (self : Account) (cursor : ℕ) (fresh : List Entry)
    (history : CameraHistory) : Account :=
  let due := self.due ++ fresh
  { self with
    due
    missed := self.missed ++ due.filter fun e => cursor < e.sequence ∧ e ∉ history.alarms }

/-- The reader is given some events. -/
def receive (self : Account) (events : List AlarmEvent) : Account :=
  { self with received := self.received ++ events }

/-- An alarm has been received, or it was evicted too early. -/
def Settles (self : Account) (e : Entry) : Prop :=
  (∃ event ∈ self.received, event.sequence = e.sequence) ∨ e ∈ self.missed

/-- The account of a reader at this cursor is in order. -/
structure Fair (history : CameraHistory) (cursor : ℕ) (account : Account) : Prop where
  reached : cursor ≤ history.head
  ascending : account.received.Pairwise fun e e' => e.sequence < e'.sequence
  behind : ∀ event ∈ account.received, event.sequence ≤ cursor
  owed : ∀ event ∈ account.received, ∃ e ∈ account.due, e.event = event.bare
  /-- nothing behind the cursor is left out -/
  complete : ∀ e ∈ account.due, e.sequence ≤ cursor → account.Settles e
  pending : ∀ e ∈ account.due, cursor < e.sequence → e ∈ history.alarms ∨ e ∈ account.missed
  fresh : ∀ e ∈ account.due, history.floor < e.sequence ∧ e.sequence ≤ history.head
  distinct : account.due.Pairwise fun e e' => e.sequence < e'.sequence
  /-- everything that is new is on the account -/
  tracked : ∀ e ∈ history.alarms, max cursor history.floor < e.sequence → e ∈ account.due

/-- What a reader at this cursor is told is in order. -/
structure Answer (history : CameraHistory) (cursor : ℕ) (account : Account) (next : ℕ)
    (events : List AlarmEvent) : Prop where
  forward : cursor ≤ next
  bound : next ≤ history.head
  ascending : events.Pairwise fun e e' => e.sequence < e'.sequence
  range : ∀ event ∈ events, cursor < event.sequence ∧ event.sequence ≤ next
  owed : ∀ event ∈ events, ∃ e ∈ account.due, e.event = event.bare
  complete : ∀ e ∈ account.due, cursor < e.sequence → e.sequence ≤ next →
    (∃ event ∈ events, event.sequence = e.sequence) ∨ e ∈ account.missed

variable {history later : CameraHistory} {account : Account} {cursor next limit : ℕ}
  {fresh : List Entry} {events : List AlarmEvent} {e : Entry}

/-- The alarms are in the order of their numbers. -/
theorem alarms_ascending (h : history.Indexed) :
    history.alarms.Pairwise fun e e' => e.sequence < e'.sequence :=
  List.pairwise_map.mpr h.window.pairwise

/-- A reader that has just come has a fair account. -/
theorem fair_opened (h : history.Indexed) (hcursor : cursor ≤ history.head) :
    (opened history cursor).Fair history cursor := by
  have hdue : ∀ e ∈ (opened history cursor).due,
      e ∈ history.alarms ∧ max cursor history.floor < e.sequence := by
    intro e he
    obtain ⟨he, hlt⟩ := List.mem_filter.mp he
    exact ⟨he, of_decide_eq_true hlt⟩
  refine { reached := hcursor, ascending := .nil, behind := fun _ he => absurd he List.not_mem_nil,
           owed := fun _ he => absurd he List.not_mem_nil, complete := fun e he hle => ?_,
           pending := fun e he _ => .inl (hdue e he).1, fresh := fun e he => ?_,
           distinct := (alarms_ascending h).sublist List.filter_sublist,
           tracked := fun e he hlt => List.mem_filter.mpr ⟨he, decide_eq_true hlt⟩ }
  · have := (hdue e he).2
    omega
  · obtain ⟨hmem, hlt⟩ := hdue e he
    have := h.alarms_le e hmem
    omega

theorem Settles.observe (h : account.Settles e) :
    (account.observe cursor fresh later).Settles e := by
  rcases h with h | h
  · exact .inl h
  · exact .inr (List.mem_append_left _ h)

/-- A publication. -/
theorem Fair.observe (h : account.Fair history cursor)
    (hextends : CameraHistory.Extends history later fresh) :
    (account.observe cursor fresh later).Fair later cursor := by
  have hcursor := h.reached
  have hhead := hextends.head
  have hdue : ∀ e, e ∈ (account.observe cursor fresh later).due ↔ e ∈ account.due ∨ e ∈ fresh :=
    fun e => List.mem_append
  refine { reached := by omega, ascending := h.ascending, behind := h.behind,
           owed := fun event hevent => ?_, complete := fun e he hle => ?_,
           pending := fun e he hlt => ?_, fresh := fun e he => ?_,
           distinct := List.pairwise_append.mpr
             ⟨h.distinct, hextends.ascending, fun e he e' he' => ?_⟩,
           tracked := fun e he hlt => ?_ }
  -- what was due, and what is new, one part of the account after the other
  · obtain ⟨e, he, heq⟩ := h.owed event hevent
    exact ⟨e, (hdue e).mpr (.inl he), heq⟩
  · rcases (hdue e).mp he with he | he
    · exact (h.complete e he hle).observe
    · have := (hextends.numbers e he).1
      omega
  · by_cases hthere : e ∈ later.alarms
    · exact .inl hthere
    · -- it is gone, and the cursor has not reached it
      refine .inr (List.mem_append_right _ (List.mem_filter.mpr ⟨he, ?_⟩))
      exact decide_eq_true ⟨hlt, hthere⟩
  -- the floor is as before, or the batch was the priming
  · rcases hextends.floor with hfloor | ⟨hnothing, -, rfl⟩
    · rw [hfloor]
      rcases (hdue e).mp he with he | he
      · have := h.fresh e he
        omega
      · have := hextends.numbers e he
        have := hextends.level
        omega
    · rcases (hdue e).mp he with he | he
      · have := h.fresh e he
        omega
      · exact absurd he List.not_mem_nil
  · have := (h.fresh e he).2
    have := (hextends.numbers e' he').1
    omega
  · have hle := hextends.bound e he
    rcases hextends.floor with hfloor | ⟨-, hraised, -⟩
    · rw [hdue]
      refine (hextends.origin e he (by omega)).imp (fun hold => ?_) id
      exact h.tracked e hold (by omega)
    · omega

/-- A reader is not sent ahead of the head. -/
theorem after_le_head (h : history.Indexed) : (history.after cursor limit).2 ≤ history.head := by
  rcases Nat.lt_or_ge history.head cursor with hlt | hge
  · rw [CameraHistory.after_eq_of_lt hlt]
  · -- the new cursor is the old one, the floor, or the number of an alarm
    rw [CameraHistory.after_eq_of_le hge, cursorAfter]
    cases hget : (takenAfter Entry.sequence (max cursor history.floor) limit
        history.events).getLast? with
    | none => exact Nat.max_le.mpr ⟨hge, h.floor⟩
    | some x => exact h.window.number_le (takenAfter_sublist.mem (List.mem_of_getLast? hget))

/-- What is read now is in order. -/
theorem answer_after (hindexed : history.Indexed) (h : account.Fair history cursor) :
    account.Answer history cursor (history.after cursor limit).2
      ((history.after cursor limit).1.map Entry.event) := by
  have hbound := @after_le_head history cursor limit hindexed
  rw [CameraHistory.after_eq_of_le h.reached] at hbound ⊢
  have hsublist := @takenAfter_sublist _ Entry.sequence history.events
    (max cursor history.floor) limit
  have hascending := hindexed.window.pairwise.sublist hsublist
  have hforward := @cursor_le_cursorAfter _ Entry.sequence history.events
    (max cursor history.floor) limit
  -- what is taken is above the cursor, and at most as far as the next one
  have hlast : ∀ x ∈ takenAfter Entry.sequence (max cursor history.floor) limit history.events,
      max cursor history.floor < x.sequence ∧ x.sequence ≤
        cursorAfter Entry.sequence (max cursor history.floor)
          (takenAfter Entry.sequence (max cursor history.floor) limit history.events) :=
    fun x hx => ⟨lt_of_mem_takenAfter hx, le_cursorAfter hascending hx⟩
  refine { forward := by omega, bound := hbound, ascending := List.pairwise_map.mpr hascending,
           range := fun event hevent => ?_, owed := fun event hevent => ?_,
           complete := fun e he hlt hle => ?_ }
  · obtain ⟨x, hx, rfl⟩ := List.mem_map.mp hevent
    have hnumber : x.event.sequence = x.sequence := rfl
    have := hlast x hx
    omega
  · obtain ⟨x, hx, rfl⟩ := List.mem_map.mp hevent
    refine ⟨x.bare, h.tracked x.bare ?_ (hlast x hx).1, rfl⟩
    exact CameraHistory.mem_alarms_of_mem (hsublist.mem hx)
  · refine (h.pending e he hlt).imp (fun hthere => ?_) id
    obtain ⟨x, hx, rfl⟩ := List.mem_map.mp hthere
    have hfresh := (h.fresh x.bare he).1
    have hnumber : x.bare.sequence = x.sequence := rfl
    have htaken := mem_takenAfter hindexed.window.pairwise hx (by omega) (hnumber ▸ hle)
    exact ⟨x.event, List.mem_map_of_mem htaken, rfl⟩

/-- An answer that is on its way while alarms are published. -/
theorem Answer.observe (h : account.Answer history cursor next events)
    (hextends : CameraHistory.Extends history later fresh) :
    (account.observe cursor fresh later).Answer later cursor next events := by
  have hbound := h.bound
  have hhead := hextends.head
  refine { forward := h.forward, bound := by omega, ascending := h.ascending, range := h.range,
           owed := fun event hevent => ?_, complete := fun e he hlt hle => ?_ }
  · obtain ⟨e, he, heq⟩ := h.owed event hevent
    exact ⟨e, List.mem_append_left _ he, heq⟩
  -- it was due before, or it is new and behind the answer
  · rcases List.mem_append.mp he with he | he
    · exact (h.complete e he hlt hle).imp id (List.mem_append_left _)
    · have := (hextends.numbers e he).1
      omega

theorem Settles.receive (h : account.Settles e) : (account.receive events).Settles e :=
  h.imp (fun ⟨event, hevent, heq⟩ => ⟨event, List.mem_append_left _ hevent, heq⟩) id

/-- The reader is given the answer, and goes on from there. -/
theorem Fair.receive (h : account.Fair history cursor)
    (hanswer : account.Answer history cursor next events) :
    (account.receive events).Fair history next := by
  have hforward := hanswer.forward
  refine { reached := hanswer.bound,
           ascending := List.pairwise_append.mpr ⟨h.ascending, hanswer.ascending, ?_⟩,
           behind := fun event hevent => ?_, owed := fun event hevent => ?_,
           complete := fun e he hle => ?_, pending := fun e he hlt => h.pending e he (by omega),
           fresh := h.fresh, distinct := h.distinct,
           tracked := fun e he hlt => h.tracked e he (by omega) }
  -- what was read before is behind what is read now
  · intro event hevent event' hevent'
    have := h.behind event hevent
    have := (hanswer.range event' hevent').1
    omega
  · rcases List.mem_append.mp hevent with hevent | hevent
    · have := h.behind event hevent
      omega
    · exact (hanswer.range event hevent).2
  · rcases List.mem_append.mp hevent with hevent | hevent
    · exact h.owed event hevent
    · exact hanswer.owed event hevent
  -- the answer settles it, or it was settled before
  · rcases Nat.lt_or_ge cursor e.sequence with hlt | hge
    · refine (hanswer.complete e he hlt hle).imp (fun ⟨event, hevent, heq⟩ => ?_) id
      exact ⟨event, List.mem_append_right _ hevent, heq⟩
    · exact (h.complete e he hge).receive

/-- An alarm behind the cursor has been received exactly once, unless it was evicted too early. -/
theorem Fair.count_received (h : account.Fair history cursor) (he : e ∈ account.due)
    (hle : e.sequence ≤ cursor) :
    (account.received.map (·.sequence)).count e.sequence = 1 ∨ e ∈ account.missed := by
  refine (h.complete e he hle).imp (fun ⟨event, hevent, heq⟩ => ?_) id
  have hnodup : (account.received.map (·.sequence)).Nodup :=
    (List.pairwise_map.mpr h.ascending).imp Nat.ne_of_lt
  exact List.count_eq_one_of_mem hnodup (heq ▸ List.mem_map_of_mem hevent)

end Account

end Alarms

end EzvizBridge
