import EzvizBridge.CloudKey.Guard
import EzvizBridge.Lib.Roster

/-!
# Spacing of the lookups

Any number of callers of `CloudKeyGuard::fetch`. A call records its attempt, then it sends its
request, and then it gets an answer or an error; between these steps other calls go on, time passes,
and the process may end and start again. A call that is gone, with its process or because it was
cancelled, leaves its attempt where it is.
-/

namespace EzvizBridge

namespace CloudKey

open Recordings (Persist)
open Roster

/-! ### Calls -/

/-- What has become of a call after `begin`. -/
inductive Status
  | live
  /-- Cancelled, or its process has ended. -/
  | lost
  | ended (result : Except BridgeError String)
  deriving DecidableEq

/-- A call of `fetch` that is past `begin`. -/
structure Call where
  serial : String
  began : ℤ
  sentAt : Option ℤ := none
  status : Status := .live
  deriving DecidableEq

/-- The outcome is not one of `never_processed`. -/
def Call.Stands (isConnect : String → Bool) (self : Call) : Prop :=
  ∀ error, self.status = .ended (.error error) → neverProcessed isConnect error = false

/-- The guard, its callers and the clock. -/
structure State where
  guard : Guard
  clock : ℤ
  calls : List Call := []

/-- What can happen. -/
inductive Event
  | tick (seconds : ℕ)
  /-- `fetch` up to its request. -/
  | fetch (serial : String) (persist : Persist)
  | send (call : ℕ)
  /-- The request of a call returns. -/
  | finish (call : ℕ) (result : Except BridgeError String) (persist : Persist)
  | cancel (call : ℕ)
  | restart

section

variable (keyId : String → String) (isConnect : String → Bool)

/-- One step. -/
def step (s : State) : Event → Option State
  | .tick seconds => some { s with clock := s.clock + seconds }
  | .fetch serial persist =>
    match s.guard.cached keyId serial with
    | some _ => some s
    | none =>
      match s.guard.begin keyId serial s.clock persist with
      | (.error _, guard) => some { s with guard }
      | (.ok _, guard) => some { s with guard, calls := s.calls ++ [{ serial, began := s.clock }] }
  | .send i =>
    match s.calls[i]? with
    | some ⟨serial, began, none, .live⟩ =>
      some { s with calls := s.calls.set i ⟨serial, began, some s.clock, .live⟩ }
    | _ => none
  | .finish i result persist =>
    match s.calls[i]? with
    | some ⟨serial, began, sentAt, .live⟩ =>
      some
        { s with
          guard := s.guard.finish keyId isConnect serial result persist
          calls := s.calls.set i ⟨serial, began, sentAt, .ended result⟩ }
    | _ => none
  | .cancel i =>
    match s.calls[i]? with
    | some ⟨serial, began, sentAt, .live⟩ =>
      some { s with calls := s.calls.set i ⟨serial, began, sentAt, .lost⟩ }
    | _ => none
  | .restart =>
    some
      { s with
        guard := .load s.guard.file
        calls := s.calls.map fun call =>
          if call.status = .live then { call with status := .lost } else call }

end

/-- Every request ends within 24 hours. -/
def Prompt (s : State) : Event → Prop
  | .tick seconds => ∀ call ∈ s.calls, call.status = .live →
      s.clock + seconds < call.began + cloudKeyIntervalSeconds
  | _ => True

instance : ∀ (s : State) (event : Event), Decidable (Prompt s event)
  | s, .tick seconds =>
    inferInstanceAs (Decidable (∀ call ∈ s.calls, call.status = .live →
      s.clock + seconds < call.began + cloudKeyIntervalSeconds))
  | _, .fetch _ _ | _, .send _ | _, .finish _ _ _ | _, .cancel _ | _, .restart =>
    inferInstanceAs (Decidable True)

/-- A process starts with the attempts in the file. -/
def State.load (file : String → Option ℤ) (clock : ℤ) : State := { guard := .load file, clock }

/-! ### The invariant -/

section

variable {keyId : String → String} {isConnect : String → Bool} {s s' : State}

/-- The attempt of the call is in memory and in the file. -/
def State.Latched (keyId : String → String) (s : State) (call : Call) : Prop :=
  s.guard.attempts (keyId call.serial) = some call.began ∧
    s.guard.file (keyId call.serial) = some call.began

/-- One of the calls began a day after the other. -/
def Apart (a b : Call) : Prop :=
  a.began + cloudKeyIntervalSeconds ≤ b.began ∨ b.began + cloudKeyIntervalSeconds ≤ a.began

/-- What the callers and the guard know of each other. -/
structure Guarded (keyId : String → String) (isConnect : String → Bool) (s : State) : Prop where
  began_le : ∀ (i : ℕ) call, s.calls[i]? = some call → call.began ≤ s.clock
  sent_ge : ∀ (i : ℕ) call at_, s.calls[i]? = some call → call.sentAt = some at_ →
    call.began ≤ at_
  latched : ∀ (i : ℕ) call, s.calls[i]? = some call → call.Stands isConnect →
    s.clock < call.began + cloudKeyIntervalSeconds → s.Latched keyId call
  live : ∀ (i : ℕ) call, s.calls[i]? = some call → call.status = .live →
    s.clock < call.began + cloudKeyIntervalSeconds
  apart : ∀ (i j : ℕ) a b, s.calls[i]? = some a → s.calls[j]? = some b → i ≠ j →
    keyId a.serial = keyId b.serial → a.Stands isConnect → b.Stands isConnect → Apart a b

theorem Call.stands_of_live {call : Call} (h : call.status = .live) : call.Stands isConnect := by
  intro error herror
  exact nomatch h.symm.trans herror

theorem guarded_load (file : String → Option ℤ) (clock : ℤ) :
    Guarded keyId isConnect (.load file clock) := by
  have hnone : ∀ (i : ℕ) call, (State.load file clock).calls[i]? ≠ some call := by
    intro i call h
    exact Option.some_ne_none call (h.symm.trans List.getElem?_nil)
  exact ⟨fun i call h => absurd h (hnone i call), fun i call _ h => absurd h (hnone i call),
    fun i call h => absurd h (hnone i call), fun i call h => absurd h (hnone i call),
    fun i _ a _ h => absurd h (hnone i a)⟩

/-- Time passes, and no call is live for a day. -/
theorem Guarded.tick (h : Guarded keyId isConnect s) {seconds : ℕ}
    (hprompt : Prompt s (.tick seconds)) :
    Guarded keyId isConnect { s with clock := s.clock + seconds } where
  began_le i call hi := (h.began_le i call hi).trans
    (Int.le_add_of_nonneg_right (Int.natCast_nonneg _))
  sent_ge := h.sent_ge
  latched i call hi hstands hlt :=
    h.latched i call hi hstands ((Int.le_add_of_nonneg_right (Int.natCast_nonneg _)).trans_lt hlt)
  live _ call hi hlive := hprompt call (List.mem_of_getElem? hi) hlive
  apart := h.apart

/-! ### Steps of the guard -/

/-- The attempt was not refused, so no other attempt is recent. -/
theorem Guarded.past_of_not_paused (h : Guarded keyId isConnect s) {serial : String}
    (hfree : ¬(s.guard.attempts (keyId serial)).any fun attempt =>
      s.clock < attempt + cloudKeyIntervalSeconds)
    {i : ℕ} {call : Call} (hi : s.calls[i]? = some call) (hstands : call.Stands isConnect)
    (hkey : keyId call.serial = keyId serial) :
    call.began + cloudKeyIntervalSeconds ≤ s.clock := by
  by_contra hlt
  rw [not_le] at hlt
  have hlatched := (h.latched i call hi hstands hlt).1
  rw [hkey] at hlatched
  rw [hlatched] at hfree
  exact hfree (decide_eq_true hlt)

/-- What `begin` leaves of the attempts of the last day. -/
theorem Guard.begin_keeps {guard : Guard} {serial key : String} {now attempt : ℤ}
    (hne : key ≠ keyId serial) (hrecent : now - attempt < cloudKeyIntervalSeconds)
    (hkey : guard.attempts key = some attempt) :
    (Function.update guard.attempts (keyId serial) (some now) key).filter
      (fun attempt => decide (now - attempt < cloudKeyIntervalSeconds)) = some attempt := by
  rw [Function.update_of_ne hne, hkey, Option.filter_some, if_pos (decide_eq_true hrecent)]

/-- The guard has changed, but no recent attempt of a call that stands. -/
theorem Guarded.of_guard (h : Guarded keyId isConnect s) (guard : Guard)
    (hkeep : ∀ (i : ℕ) call, s.calls[i]? = some call → call.Stands isConnect →
      s.clock < call.began + cloudKeyIntervalSeconds → s.Latched keyId call →
      State.Latched keyId { s with guard } call) :
    Guarded keyId isConnect { s with guard } where
  began_le := h.began_le
  sent_ge := h.sent_ge
  latched i call hi hstands hlt := hkeep i call hi hstands hlt (h.latched i call hi hstands hlt)
  live := h.live
  apart := h.apart

/-- A call gets another status. -/
theorem Guarded.setCall (h : Guarded keyId isConnect s) {i : ℕ} {serial : String} {began : ℤ}
    {sentAt sentAt' : Option ℤ} {status : Status}
    (hi : s.calls[i]? = some ⟨serial, began, sentAt, .live⟩)
    (hsent : sentAt' = sentAt ∨ sentAt' = some s.clock) :
    Guarded keyId isConnect { s with calls := s.calls.set i ⟨serial, began, sentAt', status⟩ } := by
  -- the key and the time of the call stay as they are
  have hstands : Call.Stands isConnect ⟨serial, began, sentAt, .live⟩ := Call.stands_of_live rfl
  have hbegan := h.began_le i _ hi
  have hsent' := fun at_ => h.sent_ge i _ at_ hi
  have hlatched := h.latched i _ hi hstands
  have hlive := h.live i _ hi rfl
  have hleft := fun k b hk hne hkey => h.apart i k _ b hi hk hne hkey hstands
  have hright := fun j a hj hne hkey ha => h.apart j i a _ hj hi hne hkey ha hstands
  refine ⟨?_, ?_, ?_, ?_, ?_⟩
  · intro j call hj
    rcases of_set_eq_some hj with ⟨-, rfl⟩ | ⟨-, hj⟩
    · exact hbegan
    · exact h.began_le j call hj
  · intro j call at_ hj hat
    rcases of_set_eq_some hj with ⟨-, rfl⟩ | ⟨-, hj⟩
    · rcases hsent with rfl | rfl
      · exact hsent' at_ hat
      · obtain rfl := Option.some.inj hat
        exact hbegan
    · exact h.sent_ge j call at_ hj hat
  · intro j call hj hcall hlt
    rcases of_set_eq_some hj with ⟨-, rfl⟩ | ⟨-, hj⟩
    · exact hlatched hlt
    · exact h.latched j call hj hcall hlt
  · intro j call hj hcall
    rcases of_set_eq_some hj with ⟨-, rfl⟩ | ⟨-, hj⟩
    · exact hlive
    · exact h.live j call hj hcall
  · intro j k a b hj hk hne hkey ha hb
    rcases of_set_eq_some hj with ⟨rfl, rfl⟩ | ⟨-, hold⟩ <;>
      rcases of_set_eq_some hk with ⟨rfl, rfl⟩ | ⟨-, hold'⟩
    · exact absurd rfl hne
    · exact hleft k b hold' hne hkey hb
    · exact hright j a hold hne hkey ha
    · exact h.apart j k a b hold hold' hne hkey ha hb

/-- The file has the new attempts, or it is as it was. -/
theorem Guard.store_file {guard : Guard} {attempts : String → Option ℤ} {persist : Persist}
    {key : String} {attempt : ℤ} (hnew : attempts key = some attempt)
    (hold : guard.file key = some attempt) :
    (guard.store attempts persist).file key = some attempt := by
  show (if persist.published then attempts else guard.file) key = some attempt
  split
  · exact hnew
  · exact hold

/-- An attempt is recorded: it is the only one of its key, and the others stay. -/
theorem Guarded.fetch (h : Guarded keyId isConnect s) {serial : String} {persist : Persist}
    (hs : step keyId isConnect s (.fetch serial persist) = some s') :
    Guarded keyId isConnect s' := by
  simp only [step] at hs
  split at hs
  case h_1 =>
    obtain rfl := Option.some.inj hs
    exact h
  case h_2 =>
  unfold Guard.begin at hs
  by_cases hpaused : (s.guard.attempts (keyId serial)).any fun attempt =>
      s.clock < attempt + cloudKeyIntervalSeconds
  · rw [if_pos hpaused] at hs
    obtain rfl := Option.some.inj hs
    exact h
  · rw [if_neg hpaused] at hs
    -- the recent attempts of the other keys stay, in memory and in the file
    have hkeep : ∀ (i : ℕ) call, s.calls[i]? = some call → call.Stands isConnect →
        s.clock < call.began + cloudKeyIntervalSeconds → s.Latched keyId call →
        State.Latched keyId
          { s with
            guard := s.guard.store (fun key =>
              (Function.update s.guard.attempts (keyId serial) (some s.clock) key).filter
                fun attempt => s.clock - attempt < cloudKeyIntervalSeconds) persist } call := by
      intro i call hi hstands hlt hlatched
      have hne : keyId call.serial ≠ keyId serial := by
        intro hkey
        exact absurd (h.past_of_not_paused hpaused hi hstands hkey) (not_le.mpr hlt)
      have hnew := Guard.begin_keeps hne (show s.clock - call.began < _ by omega) hlatched.1
      exact ⟨hnew, Guard.store_file hnew hlatched.2⟩
    cases persist with
    | failed replaced detail =>
      obtain rfl := Option.some.inj hs
      exact h.of_guard _ hkeep
    | ok =>
      obtain rfl := Option.some.inj hs
      have hguard := h.of_guard _ hkeep
      have hself : (Function.update s.guard.attempts (keyId serial) (some s.clock)
          (keyId serial)).filter (fun attempt => decide
            (s.clock - attempt < cloudKeyIntervalSeconds)) = some s.clock := by
        rw [Function.update_self, Option.filter_some, if_pos]
        rw [sub_self]
        decide
      refine ⟨?_, ?_, ?_, ?_, ?_⟩
      · intro i call hi
        rcases of_concat_eq_some hi with ⟨-, rfl⟩ | ⟨-, hi⟩
        · exact le_rfl
        · exact h.began_le i call hi
      · intro i call at_ hi hat
        rcases of_concat_eq_some hi with ⟨-, rfl⟩ | ⟨-, hi⟩
        · exact nomatch hat
        · exact h.sent_ge i call at_ hi hat
      · intro i call hi hstands hlt
        rcases of_concat_eq_some hi with ⟨-, rfl⟩ | ⟨-, hi⟩
        · exact ⟨hself, hself⟩
        · exact hguard.latched i call hi hstands hlt
      · intro i call hi hlive
        rcases of_concat_eq_some hi with ⟨-, rfl⟩ | ⟨-, hi⟩
        · show s.clock < s.clock + cloudKeyIntervalSeconds
          exact lt_add_of_pos_right _ (by decide)
        · exact h.live i call hi hlive
      · intro i j a b hi hj hne hkey ha hb
        rcases of_concat_eq_some hi with ⟨rfl, rfl⟩ | ⟨-, hold⟩ <;>
          rcases of_concat_eq_some hj with ⟨rfl, rfl⟩ | ⟨-, hold'⟩
        · exact absurd rfl hne
        · exact .inr (h.past_of_not_paused hpaused hold' hb hkey.symm)
        · exact .inl (h.past_of_not_paused hpaused hold ha hkey)
        · exact h.apart i j a b hold hold' hne hkey ha hb

/-- A call that is released was the only recent one of its key. -/
theorem Guarded.finish (h : Guarded keyId isConnect s) {i : ℕ}
    {result : Except BridgeError String} {persist : Persist}
    (hs : step keyId isConnect s (.finish i result persist) = some s') :
    Guarded keyId isConnect s' := by
  simp only [step] at hs
  split at hs
  case h_2 => exact nomatch hs
  case h_1 serial began sentAt hi =>
  obtain rfl := Option.some.inj hs
  have hset : Guarded keyId isConnect
      { s with calls := s.calls.set i ⟨serial, began, sentAt, .ended result⟩ } :=
    h.setCall hi (.inl rfl)
  cases result with
  | ok code => exact hset.of_guard _ fun _ _ _ _ _ hlatched => hlatched
  | error error =>
    rw [Guard.finish]
    split
    case isFalse => exact hset
    case isTrue hnever =>
    refine hset.of_guard _ ?_
    intro j call hj hstands hlt hlatched
    -- this call does not stand any more
    rcases of_set_eq_some hj with ⟨rfl, rfl⟩ | ⟨hne, hj⟩
    · exact absurd (hstands error rfl) (by rw [hnever]; decide)
    · have hother : keyId call.serial ≠ keyId serial := by
        intro hkey
        have hrecent := h.live i _ hi rfl
        have hbegan := h.began_le i _ hi
        have hle := h.began_le j call hj
        rcases h.apart j i call _ hj hi hne hkey hstands (Call.stands_of_live rfl) with hap | hap
        · exact absurd (hap.trans hbegan) (not_le.mpr hlt)
        · exact absurd (hap.trans hle) (not_le.mpr hrecent)
      have hnew : Function.update s.guard.attempts (keyId serial) none (keyId call.serial) =
          some call.began := by
        rw [Function.update_of_ne hother]
        exact hlatched.1
      exact ⟨hnew, Guard.store_file hnew hlatched.2⟩

/-- The attempts that count are in the file. -/
theorem Guarded.restart (h : Guarded keyId isConnect s)
    (hs : step keyId isConnect s .restart = some s') : Guarded keyId isConnect s' := by
  obtain rfl := Option.some.inj hs
  -- a call of the new list was there before, and it stands if the new one does
  have hbefore : ∀ (i : ℕ) call, (s.calls.map fun call =>
      if call.status = .live then { call with status := .lost } else call)[i]? = some call →
      ∃ old, s.calls[i]? = some old ∧ call.serial = old.serial ∧ call.began = old.began ∧
        call.sentAt = old.sentAt ∧ call.status ≠ .live ∧
        (call.Stands isConnect → old.Stands isConnect) := by
    intro i call hi
    rw [List.getElem?_map] at hi
    obtain ⟨old, hold, rfl⟩ := Option.map_eq_some_iff.mp hi
    refine ⟨old, hold, ?_⟩
    by_cases hlive : old.status = .live
    · rw [if_pos hlive]
      exact ⟨rfl, rfl, rfl, nofun, fun _ => Call.stands_of_live hlive⟩
    · rw [if_neg hlive]
      exact ⟨rfl, rfl, rfl, hlive, id⟩
  refine ⟨?_, ?_, ?_, ?_, ?_⟩
  · intro i call hi
    obtain ⟨old, hold, -, hbegan, -⟩ := hbefore i call hi
    rw [hbegan]
    exact h.began_le i old hold
  · intro i call at_ hi hat
    obtain ⟨old, hold, -, hbegan, hsent, -⟩ := hbefore i call hi
    rw [hbegan]
    exact h.sent_ge i old at_ hold (hsent ▸ hat)
  · intro i call hi hstands hlt
    obtain ⟨old, hold, hserial, hbegan, -, -, hstands'⟩ := hbefore i call hi
    rw [hbegan] at hlt
    have hfile := (h.latched i old hold (hstands' hstands) hlt).2
    rw [← hserial, ← hbegan] at hfile
    exact ⟨hfile, hfile⟩
  · intro i call hi hlive
    obtain ⟨-, -, -, -, -, hne, -⟩ := hbefore i call hi
    exact absurd hlive hne
  · intro i j a b hi hj hne hkey ha hb
    obtain ⟨old, hold, hserial, hbegan, -, -, hstands⟩ := hbefore i a hi
    obtain ⟨old', hold', hserial', hbegan', -, -, hstands'⟩ := hbefore j b hj
    rw [hserial, hserial'] at hkey
    rw [Apart, hbegan, hbegan']
    exact h.apart i j old old' hold hold' hne hkey (hstands ha) (hstands' hb)

/-- What one step preserves. -/
theorem Guarded.step (h : Guarded keyId isConnect s) {event : Event} (hprompt : Prompt s event)
    (hs : CloudKey.step keyId isConnect s event = some s') : Guarded keyId isConnect s' := by
  cases event with
  -- time only makes attempts older
  | tick seconds =>
    obtain rfl := Option.some.inj hs
    exact h.tick hprompt
  | fetch serial persist => exact h.fetch hs
  | send i =>
    simp only [CloudKey.step] at hs
    split at hs
    case h_2 => exact nomatch hs
    case h_1 serial began hi =>
    obtain rfl := Option.some.inj hs
    exact h.setCall hi (.inr rfl)
  | finish i result persist => exact h.finish hs
  -- a dropped call has not failed: its attempt stays
  | cancel i =>
    simp only [CloudKey.step] at hs
    split at hs
    case h_2 => exact nomatch hs
    case h_1 serial began sentAt hi =>
    obtain rfl := Option.some.inj hs
    exact h.setCall hi (.inl rfl)
  | restart => exact h.restart hs

theorem Guarded.run {file : String → Option ℤ} {clock : ℤ} {events : List Event}
    (hprompt : EventSystem.Steps (CloudKey.step keyId isConnect) Prompt (.load file clock) events)
    (hrun : EventSystem.run (CloudKey.step keyId isConnect) (.load file clock) events = some s) :
    Guarded keyId isConnect s :=
  EventSystem.run_invariant (Guarded keyId isConnect)
    (fun _ _ _ hg hp hs => hg.step hp hs) (guarded_load file clock) hprompt hrun

/-! ### Results -/

/-- The camera whose attempt a step records, prunes by the way, or releases. -/
def Event.concerns (s : State) : Event → Option String
  | .fetch serial _ => some serial
  | .finish i _ _ => s.calls[i]?.map Call.serial
  | _ => none

/-- A step for one camera leaves the recent attempts of the others alone. -/
theorem step_keeps_others {event : Event} (hs : step keyId isConnect s event = some s')
    {serial other : String} (hserial : event.concerns s = some serial)
    (hne : keyId other ≠ keyId serial) {attempt : ℤ}
    (hattempt : s.guard.attempts (keyId other) = some attempt)
    (hrecent : s.clock - attempt < cloudKeyIntervalSeconds) :
    s'.guard.attempts (keyId other) = some attempt ∧
      (s.guard.file (keyId other) = some attempt → s'.guard.file (keyId other) = some attempt) := by
  cases event with
  | fetch serial' persist =>
    obtain rfl := Option.some.inj hserial
    simp only [step] at hs
    split at hs
    case h_1 =>
      obtain rfl := Option.some.inj hs
      exact ⟨hattempt, id⟩
    -- neither the new attempt nor the purge touches a recent one
    case h_2 =>
    unfold Guard.begin at hs
    by_cases hpaused : (s.guard.attempts (keyId serial')).any fun attempt =>
        s.clock < attempt + cloudKeyIntervalSeconds
    · rw [if_pos hpaused] at hs
      obtain rfl := Option.some.inj hs
      exact ⟨hattempt, id⟩
    · rw [if_neg hpaused] at hs
      have hnew := Guard.begin_keeps hne hrecent hattempt
      cases persist with
      | ok =>
        obtain rfl := Option.some.inj hs
        exact ⟨hnew, fun _ => hnew⟩
      | failed replaced detail =>
        obtain rfl := Option.some.inj hs
        exact ⟨hnew, Guard.store_file hnew⟩
  | finish i result persist =>
    simp only [step] at hs
    split at hs
    case h_2 => exact nomatch hs
    case h_1 found began sentAt hi =>
    rw [Event.concerns, hi, Option.map_some] at hserial
    obtain rfl := Option.some.inj hserial
    obtain rfl := Option.some.inj hs
    cases result with
    | ok code => exact ⟨hattempt, id⟩
    | error error =>
      show (s.guard.finish keyId isConnect found (.error error) persist).attempts
          (keyId other) = _ ∧ _
      -- only a connection failure takes an attempt back, its own
      rw [Guard.finish]
      split
      case isFalse => exact ⟨hattempt, id⟩
      case isTrue =>
      have hnew : Function.update s.guard.attempts (keyId found) none (keyId other) =
          some attempt := by
        rw [Function.update_of_ne hne]
        exact hattempt
      exact ⟨hnew, Guard.store_file hnew⟩
  | tick seconds => exact nomatch hserial
  | send i => exact nomatch hserial
  | cancel i => exact nomatch hserial
  | restart => exact nomatch hserial

/-- Any run: the attempts of two requests for one camera that stand are recorded a day apart, and a
request is sent after its attempt was recorded; the attempt is in the file when the request is sent;
no two calls for one camera are on the way at the same time; and nothing that is done for one camera
removes the attempt of another one that is less than a day old. -/
theorem lookups_spaced {file : String → Option ℤ} {clock : ℤ} {events : List Event}
    (hprompt : EventSystem.Steps (step keyId isConnect) Prompt (.load file clock) events)
    (hrun : EventSystem.run (step keyId isConnect) (.load file clock) events = some s) :
    (∀ (i j : ℕ) a b t u, s.calls[i]? = some a → s.calls[j]? = some b → i ≠ j →
      a.serial = b.serial → a.Stands isConnect → b.Stands isConnect →
      a.sentAt = some t → b.sentAt = some u →
        a.began + cloudKeyIntervalSeconds ≤ b.began ∧ b.began ≤ u ∨
          b.began + cloudKeyIntervalSeconds ≤ a.began ∧ a.began ≤ t) ∧
      (∀ i s', step keyId isConnect s (.send i) = some s' →
        ∃ call, s.calls[i]? = some call ∧
          s.guard.file (keyId call.serial) = some call.began) ∧
      (∀ (i j : ℕ) a b, s.calls[i]? = some a → s.calls[j]? = some b → a.serial = b.serial →
        a.status = .live → b.status = .live → i = j) ∧
      ∀ event s' serial other attempt, step keyId isConnect s event = some s' →
        event.concerns s = some serial → keyId other ≠ keyId serial →
        s.guard.attempts (keyId other) = some attempt →
        s.clock - attempt < cloudKeyIntervalSeconds →
          s'.guard.attempts (keyId other) = some attempt ∧
            (s.guard.file (keyId other) = some attempt →
              s'.guard.file (keyId other) = some attempt) := by
  have h := Guarded.run hprompt hrun
  refine ⟨?_, ?_, ?_, ?_⟩
  -- requests of one camera
  · intro i j a b t u hi hj hne hserial ha hb ht hu
    rcases h.apart i j a b hi hj hne (congrArg keyId hserial) ha hb with hap | hap
    · exact .inl ⟨hap, h.sent_ge j b u hj hu⟩
    · exact .inr ⟨hap, h.sent_ge i a t hi ht⟩
  · intro i s' hs
    simp only [step] at hs
    split at hs
    case h_2 => exact nomatch hs
    case h_1 serial began hi =>
    have hlive := h.live i _ hi rfl
    exact ⟨_, hi, (h.latched i _ hi (Call.stands_of_live rfl) hlive).2⟩
  -- two live calls would be a day apart, and no call lives that long
  · intro i j a b hi hj hserial ha hb
    by_contra hne
    have hlt := h.live i a hi ha
    have hlt' := h.live j b hj hb
    rcases h.apart i j a b hi hj hne (congrArg keyId hserial) (Call.stands_of_live ha)
      (Call.stands_of_live hb) with hap | hap
    · exact absurd (hap.trans (h.began_le j b hj)) (not_le.mpr hlt)
    · exact absurd (hap.trans (h.began_le i a hi)) (not_le.mpr hlt')
  · intro event s' serial other attempt hs hserial hne hattempt hrecent
    exact step_keeps_others hs hserial hne hattempt hrecent

end

def sampleLookups : List Event :=
  [.fetch "C12345678" .ok, .tick 5, .send 0, .finish 0 (.error (.upstream "refused")) .ok,
    .tick 86395, .fetch "C12345678" .ok, .send 1]

theorem lookups_spaced_sample :
    ∃ s, EventSystem.run (step id fun _ => false) (.load (fun _ => none) 0) sampleLookups = some s ∧
      s.calls.map Call.sentAt = [some 5, some 86400] ∧
      ∀ (i j : ℕ) a b t u, s.calls[i]? = some a → s.calls[j]? = some b → i ≠ j →
        a.serial = b.serial → a.Stands (fun _ => false) → b.Stands (fun _ => false) →
        a.sentAt = some t → b.sentAt = some u →
          a.began + cloudKeyIntervalSeconds ≤ b.began ∧ b.began ≤ u ∨
            b.began + cloudKeyIntervalSeconds ≤ a.began ∧ a.began ≤ t := by
  have hprompt : EventSystem.Steps (step id fun _ => false) Prompt
      (.load (fun _ => none) 0) sampleLookups := by
    decide +kernel
  have hsome : (EventSystem.run (step id fun _ => false) (.load (fun _ => none) 0)
      sampleLookups).isSome := by
    decide +kernel
  have hsent : ∀ s ∈ EventSystem.run (step id fun _ => false)
      (.load (fun _ => none) 0) sampleLookups,
      s.calls.map Call.sentAt = [some 5, some 86400] := by
    decide +kernel
  obtain ⟨s, hs⟩ := Option.isSome_iff_exists.mp hsome
  exact ⟨s, hs, hsent s hs, (lookups_spaced hprompt hs).1⟩

/-- The two requests are sent 86395 seconds apart. -/
theorem lookups_sent_within_a_day :
    EventSystem.Steps (step id fun _ => false) Prompt (.load (fun _ => none) 0) sampleLookups ∧
      ∃ s, EventSystem.run (step id fun _ => false)
        (.load (fun _ => none) 0) sampleLookups = some s ∧
        ∃ a b t u, s.calls = [a, b] ∧ a.serial = b.serial ∧ a.Stands (fun _ => false) ∧
          b.Stands (fun _ => false) ∧ a.sentAt = some t ∧ b.sentAt = some u ∧ t ≤ u ∧
          u - t < cloudKeyIntervalSeconds := by
  have hsome : (EventSystem.run (step id fun _ => false) (.load (fun _ => none) 0)
      sampleLookups).isSome := by
    decide +kernel
  have hcalls : ∀ s ∈ EventSystem.run (step id fun _ => false)
      (.load (fun _ => none) 0) sampleLookups,
      s.calls = [⟨"C12345678", 0, some 5, .ended (.error (.upstream "refused"))⟩,
        ⟨"C12345678", 86400, some 86400, .live⟩] := by
    decide +kernel
  obtain ⟨s, hs⟩ := Option.isSome_iff_exists.mp hsome
  refine ⟨by decide +kernel, s, hs, _, _, 5, 86400, hcalls s hs, rfl, ?_, ?_, rfl, rfl, by decide,
    by decide⟩
  · intro error herror
    obtain rfl := Except.error.inj (Status.ended.inj herror)
    rfl
  · exact Call.stands_of_live rfl

end CloudKey

end EzvizBridge
