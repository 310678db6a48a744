import EzvizBridge.Enrollment.Manager
import EzvizBridge.Lib.Roster

/-!
# Enrolment does not get stuck

Any number of calls of the manager, in any order. `Moves` says what a call can do to the manager
when it goes from one phase to the next, and every invariant is a case analysis over it.
-/

namespace EzvizBridge

namespace Enrollment

open Roster

/-! ### What a call can do -/

/-- `start` is past its admission, and its outcome is not recorded yet. -/
def Phase.admitted : Phase → Bool
  | .requesting _ | .returned _ _ => true
  | _ => false

/-- When the call was over. -/
def Phase.overAt : Phase → Option ℕ
  | .ended at_ _ | .dropped at_ => some at_
  | _ => none

/-- A call that waits for the lock is not over. -/
theorem Phase.overAt_of_waits {phase : Phase} (h : phase.waits = true) : phase.overAt = none := by
  cases phase <;> first | rfl | exact nomatch h

/-- Nor is a `start` that has been admitted. -/
theorem Phase.overAt_of_admitted {phase : Phase} (h : phase.admitted = true) :
    phase.overAt = none := by
  cases phase <;> first | rfl | exact nomatch h

/-- A call with the number `i` goes from one phase to another: what becomes of the manager and of
the record. -/
inductive Moves (m : Manager) (now i : ℕ) (done : List Completion) :
    Phase → Phase → Manager → List Completion → Prop
  | admitted (id : Uuid) (hpending : (m.expire now).pending = none)
      (hflight : m.inFlight = false) :
      Moves m now i done .starting (.requesting id)
        { m.expire now with lastStart := some now, inFlight := true } done
  | refused : Moves m now i done .starting (.ended now (.error .enrollmentBusy))
      (m.expire now) done
  | returned (id : Uuid) (outcome : Except BridgeError EnrollmentState) :
      Moves m now i done (.requesting id) (.returned id outcome) m done
  | pended (id : Uuid) : Moves m now i done (.returned id (.ok .mfa))
      (.ended now (.ok (.started id "otp" 120)))
      { m with inFlight := false, pending := some ⟨id, i, now + enrollmentTtl⟩ }
      done
  | recorded (id : Uuid) (outcome : Except BridgeError EnrollmentState)
      (result : Except BridgeError Response) (ready : Bool) :
      Moves m now i done (.returned id outcome) (.ended now result)
        { m with inFlight := false, ready } done
  | taken (pending : Pending) (hpending : m.pending = some pending)
      (hlive : now < pending.expiresAt) :
      Moves m now i done (.verifying pending.id) (.completing pending) { m with pending := none }
        (done ++ [⟨pending, pending.id, now⟩])
  | missed (id : Uuid) (hother : ∀ pending, m.pending = some pending →
      now < pending.expiresAt → pending.id ≠ id) :
      Moves m now i done (.verifying id) (.ended now (.error .enrollmentExpired))
        (m.expire now) done
  | completed (pending : Pending) (result : Except BridgeError Response) (ready : Bool) :
      Moves m now i done (.completing pending) (.ended now result) { m with ready } done
  | cancelled (id : Uuid) :
      Moves m now i done (.cancelling id) (.ended now (.ok .cancelled)) (m.cancel id) done
  | dropped (phase : Phase) (hover : phase.over = false) :
      Moves m now i done phase (.dropped now) m done

/-- What is pending after `expire` was pending before and has not expired. -/
theorem Manager.expire_pending {manager : Manager} {now : ℕ} {pending : Pending} :
    (manager.expire now).pending = some pending ↔
      manager.pending = some pending ∧ now < pending.expiresAt := by
  rw [expire]
  split
  -- the pending enrolment has expired, and is dropped
  case isTrue h =>
    obtain ⟨found, hfound, hexpired⟩ := (Option.any_eq_true _ _).mp h
    rw [decide_eq_true_eq] at hexpired
    constructor
    · intro hnone
      exact nomatch hnone
    · rintro ⟨hpending, hlt⟩
      rw [hfound] at hpending
      obtain rfl := Option.some.inj hpending
      exact absurd hexpired (not_le.mpr hlt)
  -- nothing has expired, and nothing changes
  case isFalse h =>
    constructor
    · intro hpending
      refine ⟨hpending, not_le.mp fun hle => h ?_⟩
      rw [hpending]
      exact decide_eq_true hle
    · exact fun hpending => hpending.1

theorem Manager.expire_inFlight (manager : Manager) (now : ℕ) :
    (manager.expire now).inFlight = manager.inFlight := by
  rw [expire]
  split <;> rfl

theorem Manager.expire_lastStart (manager : Manager) (now : ℕ) :
    (manager.expire now).lastStart = manager.lastStart := by
  rw [expire]
  split <;> rfl

/-- What is pending after `cancel` was pending before under another identifier. -/
theorem Manager.cancel_pending {manager : Manager} {id : Uuid} {pending : Pending} :
    (manager.cancel id).pending = some pending ↔
      manager.pending = some pending ∧ pending.id ≠ id := by
  rw [cancel]
  split
  case isTrue h =>
    obtain ⟨found, hfound, hid⟩ := (Option.any_eq_true _ _).mp h
    rw [decide_eq_true_eq] at hid
    constructor
    · intro hnone
      exact nomatch hnone
    · rintro ⟨hpending, hne⟩
      rw [hfound] at hpending
      obtain rfl := Option.some.inj hpending
      exact absurd hid hne
  case isFalse h =>
    constructor
    · intro hpending
      refine ⟨hpending, fun hid => h ?_⟩
      rw [hpending]
      exact decide_eq_true hid
    · exact fun hpending => hpending.1

theorem Manager.cancel_inFlight (manager : Manager) (id : Uuid) :
    (manager.cancel id).inFlight = manager.inFlight := by
  rw [cancel]
  split <;> rfl

theorem Manager.cancel_lastStart (manager : Manager) (id : Uuid) :
    (manager.cancel id).lastStart = manager.lastStart := by
  rw [cancel]
  split <;> rfl

/-- A `start` is refused, or there is nothing pending and nothing in flight. -/
theorem Manager.takeSlot_cases (manager : Manager) (now : ℕ) :
    manager.takeSlot now = (.error .enrollmentBusy, manager.expire now) ∨
      (manager.expire now).pending = none ∧ manager.inFlight = false ∧
        manager.takeSlot now =
          (.ok (), { manager.expire now with lastStart := some now, inFlight := true }) := by
  simp only [takeSlot]
  -- busy: something is pending or in flight
  by_cases hbusy : (manager.expire now).pending.isSome ∨ (manager.expire now).inFlight
  · exact .inl (if_pos hbusy)
  · rw [if_neg hbusy]
    rw [not_or] at hbusy
    -- otherwise the cooldown decides
    split
    · exact .inl rfl
    · refine .inr ⟨Option.not_isSome_iff_eq_none.mp hbusy.1, ?_, rfl⟩
      rw [← expire_inFlight manager now]
      exact Bool.eq_false_iff.mpr hbusy.2

/-- The call that has the lock moves on. -/
theorem State.enter_cases {s s' : State} {i : ℕ} {call : Call} {id : Uuid}
    (h : s.enter i call id = some s') :
    ∃ phase,
      Moves s.manager s.clock i s.completions call.phase phase s'.manager s'.completions ∧
      s'.queue = s.queue ∧ s'.clock = s.clock ∧ s'.calls = s.calls.set i ⟨call.madeAt, phase⟩ ∧
      call.phase.waits ∧ ∀ at_, phase ≠ .dropped at_ := by
  obtain ⟨madeAt, phase⟩ := call
  -- one case for each phase that waits for the lock
  cases phase with
  | starting =>
    simp only [enter] at h
    -- `take_slot`
    rcases s.manager.takeSlot_cases s.clock with hslot | ⟨hpending, hflight, hslot⟩
    · rw [hslot] at h
      obtain rfl := Option.some.inj h
      exact ⟨_, .refused, rfl, rfl, rfl, rfl, fun _ => Phase.noConfusion⟩
    · rw [hslot] at h
      obtain rfl := Option.some.inj h
      exact ⟨_, .admitted id hpending hflight, rfl, rfl, rfl, rfl, fun _ => Phase.noConfusion⟩
  | returned id outcome =>
    simp only [enter] at h
    obtain rfl := Option.some.inj h
    -- what the provider has answered is recorded under the lock
    match outcome with
    | .ok .complete => exact ⟨_, .recorded id _ _ _, rfl, rfl, rfl, rfl, fun _ => Phase.noConfusion⟩
    | .ok .mfa => exact ⟨_, .pended id, rfl, rfl, rfl, rfl, fun _ => Phase.noConfusion⟩
    | .error error => exact ⟨_, .recorded id _ _ _, rfl, rfl, rfl, rfl, fun _ => Phase.noConfusion⟩
  | verifying id =>
    simp only [enter, Manager.take] at h
    -- `verify` takes the enrolment under its identifier, after `expire`
    cases hpending : (s.manager.expire s.clock).pending with
    | none =>
      rw [hpending] at h
      obtain rfl := Option.some.inj h
      refine ⟨_, .missed id ?_, rfl, rfl, rfl, rfl, fun _ => Phase.noConfusion⟩
      intro pending hsome hlt
      exact nomatch hpending.symm.trans (Manager.expire_pending.mpr ⟨hsome, hlt⟩)
    | some pending =>
      rw [hpending] at h
      obtain ⟨hsome, hlive⟩ := Manager.expire_pending.mp hpending
      by_cases hid : pending.id = id
      · simp only [if_pos hid] at h
        obtain rfl := Option.some.inj h
        obtain rfl := hid
        -- nothing has expired, so only the pending enrolment is gone
        have hexpire : s.manager.expire s.clock = s.manager := by
          rw [Manager.expire, hsome, if_neg]
          rw [Option.any_some, decide_eq_true_eq, not_le]
          exact hlive
        rw [hexpire]
        exact ⟨_, .taken pending hsome hlive, rfl, rfl, rfl, rfl, fun _ => Phase.noConfusion⟩
      · simp only [if_neg hid] at h
        obtain rfl := Option.some.inj h
        refine ⟨_, .missed id ?_, rfl, rfl, rfl, rfl, fun _ => Phase.noConfusion⟩
        intro other hother _ heq
        rw [hsome] at hother
        obtain rfl := Option.some.inj hother
        exact hid heq
  | cancelling id =>
    -- `cancel` is done at once
    simp only [enter] at h
    obtain rfl := Option.some.inj h
    exact ⟨_, .cancelled id, rfl, rfl, rfl, rfl, fun _ => Phase.noConfusion⟩
  -- the other phases do not wait
  | requesting id => exact nomatch h
  | completing pending => exact nomatch h
  | ended at_ result => exact nomatch h
  | dropped at_ => exact nomatch h

/-- What becomes of the queue when the call `i` goes from one phase to another. -/
inductive Queues (i : ℕ) : Phase → Phase → List ℕ → List ℕ → Prop
  | left {phase phase' : Phase} {queue : List ℕ} (hwaits : phase'.waits = false) :
      Queues i phase phase' (i :: queue) queue
  | joined {phase phase' : Phase} {queue : List ℕ} (hwaits : phase.waits = false)
      (hwaits' : phase'.waits = true) : Queues i phase phase' queue (queue ++ [i])
  | stayed {phase phase' : Phase} {queue : List ℕ} (hwaits : phase.waits = false) :
      Queues i phase phase' queue queue
  | erased {phase : Phase} {queue : List ℕ} (at_ : ℕ) :
      Queues i phase (.dropped at_) queue (queue.erase i)

/-- A call that leaves the lock does not wait for it again. -/
theorem Moves.waits {m manager : Manager} {now i : ℕ} {done completions : List Completion}
    {phase phase' : Phase} (h : Moves m now i done phase phase' manager completions)
    (hwaits : phase.waits) : phase'.waits = false := by
  cases h <;> first | rfl | exact nomatch hwaits

/-- A call that begins waits for the lock, or it is over. -/
theorem Request.begin_cases (parseStr : String → Option Uuid) (now : ℕ) (request : Request) :
    let phase := request.begin parseStr now
    phase.admitted = false ∧
      (phase.waits = true ∧ phase.overAt = none ∨
        phase.waits = false ∧ phase.overAt = some now ∧ phase ≠ .starting) := by
  -- each request parses its input before it asks for the lock
  cases request with
  | start input =>
    simp only [Request.begin]
    split
    · exact ⟨rfl, .inl ⟨rfl, rfl⟩⟩
    · exact ⟨rfl, .inr ⟨rfl, rfl, Phase.noConfusion⟩⟩
  | verify enrollmentId =>
    simp only [Request.begin]
    split
    · exact ⟨rfl, .inl ⟨rfl, rfl⟩⟩
    · exact ⟨rfl, .inr ⟨rfl, rfl, Phase.noConfusion⟩⟩
  | cancel enrollmentId =>
    simp only [Request.begin]
    split
    · exact ⟨rfl, .inl ⟨rfl, rfl⟩⟩
    · exact ⟨rfl, .inr ⟨rfl, rfl, Phase.noConfusion⟩⟩

section

variable {m manager : Manager} {now i : ℕ} {done completions : List Completion}
  {phase phase' : Phase}

theorem Moves.overAt (h : Moves m now i done phase phase' manager completions) :
    phase.overAt = none := by
  cases h with
  | dropped phase hover => cases phase <;> first | rfl | exact nomatch hover
  | _ => rfl

theorem Moves.overAt_now (h : Moves m now i done phase phase' manager completions) {at_ : ℕ}
    (hat : phase'.overAt = some at_) : at_ = now := by
  cases h <;> first | exact (Option.some.inj hat).symm | exact nomatch hat

theorem Moves.ne_starting (h : Moves m now i done phase phase' manager completions) :
    phase' ≠ .starting := by
  cases h <;> exact Phase.noConfusion

/-- The flag follows the calls that are admitted, as long as none of them is dropped. -/
theorem Moves.inFlight (h : Moves m now i done phase phase' manager completions) :
    (manager.inFlight = m.inFlight ∧ phase'.admitted = phase.admitted) ∨
      (m.inFlight = false ∧ manager.inFlight = true ∧ manager.pending = none ∧
        phase'.admitted = true) ∨
      (phase.admitted = true ∧ phase'.admitted = false ∧ manager.inFlight = false) ∨
      (phase' = .dropped now ∧ manager = m) := by
  -- only three moves write the flag: the admission, and the two that record an outcome
  cases h with
  | admitted id hpending hflight => exact .inr (.inl ⟨hflight, rfl, hpending, rfl⟩)
  | refused => exact .inl ⟨Manager.expire_inFlight _ _, rfl⟩
  | returned => exact .inl ⟨rfl, rfl⟩
  | pended => exact .inr (.inr (.inl ⟨rfl, rfl, rfl⟩))
  | recorded => exact .inr (.inr (.inl ⟨rfl, rfl, rfl⟩))
  | taken => exact .inl ⟨rfl, rfl⟩
  | missed => exact .inl ⟨Manager.expire_inFlight _ _, rfl⟩
  | completed => exact .inl ⟨rfl, rfl⟩
  | cancelled => exact .inl ⟨Manager.cancel_inFlight _ _, rfl⟩
  | dropped => exact .inr (.inr (.inr ⟨rfl, rfl⟩))

theorem Moves.dropped_manager {at_ : ℕ}
    (h : Moves m now i done phase (.dropped at_) manager completions) : manager = m := by
  cases h
  rfl

/-- Where a pending enrolment comes from. -/
theorem Moves.pending (h : Moves m now i done phase phase' manager completions) {pending : Pending}
    (hpending : manager.pending = some pending) :
    (m.pending = some pending ∧ completions = done) ∨
      (pending.provider = i ∧ pending.expiresAt = now + enrollmentTtl ∧ phase'.overAt = some now ∧
        manager.inFlight = false ∧ completions = done) := by
  -- the moves that look at it may drop it, but leave it as it was otherwise
  cases h with
  | admitted => exact .inl ⟨(Manager.expire_pending.mp hpending).1, rfl⟩
  | refused => exact .inl ⟨(Manager.expire_pending.mp hpending).1, rfl⟩
  | missed => exact .inl ⟨(Manager.expire_pending.mp hpending).1, rfl⟩
  -- the outcome `mfa` of a provider is the only one that makes it
  | pended =>
    obtain rfl := Option.some.inj hpending
    exact .inr ⟨rfl, rfl, rfl, rfl, rfl⟩
  | cancelled => exact .inl ⟨(Manager.cancel_pending.mp hpending).1, rfl⟩
  -- `verify` has taken it
  | taken => exact nomatch hpending
  | returned => exact .inl ⟨hpending, rfl⟩
  | recorded => exact .inl ⟨hpending, rfl⟩
  | completed => exact .inl ⟨hpending, rfl⟩
  | dropped => exact .inl ⟨hpending, rfl⟩

/-- The last start is the one before, or it is now. -/
theorem Moves.lastStart (h : Moves m now i done phase phase' manager completions) :
    manager.lastStart = m.lastStart ∨ manager.lastStart = some now := by
  cases h with
  | admitted => exact .inr rfl
  | refused => exact .inl (Manager.expire_lastStart _ _)
  | missed => exact .inl (Manager.expire_lastStart _ _)
  | cancelled => exact .inl (Manager.cancel_lastStart _ _)
  | _ => exact .inl rfl

/-- An enrolment is completed by the `verify` that has taken it. -/
theorem Moves.completions_cases (h : Moves m now i done phase phase' manager completions) :
    completions = done ∨
      ∃ pending, m.pending = some pending ∧ now < pending.expiresAt ∧
        phase = .verifying pending.id ∧ completions = done ++ [⟨pending, pending.id, now⟩] := by
  cases h with
  | taken pending hpending hlive => exact .inr ⟨pending, hpending, hlive, rfl, rfl⟩
  | _ => exact .inl rfl

/-- Only its own identifier removes a pending enrolment that has not expired. -/
theorem Moves.keeps (h : Moves m now i done phase phase' manager completions)
    (hexclusive : phase.admitted → m.pending = none) {pending : Pending}
    (hpending : m.pending = some pending) :
    manager.pending = some pending ∨ phase = .verifying pending.id ∨
      phase = .cancelling pending.id ∨
      pending.expiresAt ≤ now ∧ (phase = .starting ∨ ∃ id, phase = .verifying id) := by
  -- a call that expires keeps an enrolment that is still alive
  have hexpire : ∀ p : Phase, p = .starting ∨ (∃ id, p = .verifying id) →
      (m.expire now).pending = some pending ∨ p = .verifying pending.id ∨
        p = .cancelling pending.id ∨
        pending.expiresAt ≤ now ∧ (p = .starting ∨ ∃ id, p = .verifying id) := by
    intro p hp
    rcases le_or_gt pending.expiresAt now with hle | hlt
    · exact .inr (.inr (.inr ⟨hle, hp⟩))
    · exact .inl (Manager.expire_pending.mpr ⟨hpending, hlt⟩)
  cases h with
  | admitted => exact hexpire _ (.inl rfl)
  | refused => exact hexpire _ (.inl rfl)
  | missed id => exact hexpire _ (.inr ⟨id, rfl⟩)
  -- an admitted call excludes a pending enrolment
  | pended => exact nomatch (hexclusive rfl).symm.trans hpending
  | recorded => exact nomatch (hexclusive rfl).symm.trans hpending
  -- the one that was taken was the pending one
  | taken found hfound =>
    obtain rfl := Option.some.inj (hfound.symm.trans hpending)
    exact .inr (.inl rfl)
  | cancelled id =>
    by_cases hid : pending.id = id
    · exact .inr (.inr (.inl (congrArg Phase.cancelling hid.symm)))
    · exact .inl (Manager.cancel_pending.mpr ⟨hpending, hid⟩)
  -- the other moves do not touch it
  | returned => exact .inl hpending
  | completed => exact .inl hpending
  | dropped => exact .inl hpending

end

section

variable {parseStr : String → Option Uuid} {s s' : State} {event : Event}

/-- What a step can do. -/
theorem step_cases (h : step parseStr s event = some s') :
    (∃ duration, s' = { s with clock := s.clock + duration }) ∨
      (∃ request : Request, s' =
        { s with
          calls := s.calls ++ [⟨s.clock, request.begin parseStr s.clock⟩]
          queue := if (request.begin parseStr s.clock).waits then s.queue ++ [s.calls.length]
            else s.queue }) ∨
      ∃ i call phase, s.calls[i]? = some call ∧
        Moves s.manager s.clock i s.completions call.phase phase s'.manager s'.completions ∧
        Queues i call.phase phase s.queue s'.queue ∧ s'.clock = s.clock ∧
        s'.calls = s.calls.set i ⟨call.madeAt, phase⟩ ∧
        (event = .drop i ∧ phase = .dropped s.clock ∨
          (∀ at_, phase ≠ .dropped at_) ∧
            (call.phase.waits = true → (∃ id, event = .enter id) ∧ s.queue.head? = some i)) := by
  -- by the event; a call that cannot take it has no step
  cases event with
  | tick duration => exact .inl ⟨duration, (Option.some.inj h).symm⟩
  | call request => exact .inr (.inl ⟨request, (Option.some.inj h).symm⟩)
  | enter id =>
    simp only [step] at h
    split at h
    -- nobody waits for the lock
    case h_1 => exact nomatch h
    case h_2 i queue hqueue =>
    split at h
    case h_2 => exact nomatch h
    case h_1 call hi =>
    obtain ⟨phase, hmoves, hq, hclock, hcalls, hwaits, hne⟩ := State.enter_cases h
    -- the first in the queue leaves it, as it has moved on
    refine .inr (.inr ⟨i, call, phase, hi, hmoves, ?_, hclock, hcalls, ?_⟩)
    · rw [hqueue, hq]
      exact .left (hmoves.waits hwaits)
    · refine .inr ⟨hne, fun _ => ⟨⟨id, rfl⟩, ?_⟩⟩
      rw [hqueue, List.head?_cons]
  | outcome i outcome =>
    simp only [step] at h
    split at h
    case h_2 => exact nomatch h
    case h_1 madeAt id hi =>
    -- the answer of the provider sends the call back to the queue
    obtain rfl := Option.some.inj h
    exact .inr (.inr ⟨i, _, _, hi, .returned id outcome, .joined rfl rfl, rfl, rfl,
      .inr ⟨fun _ => Phase.noConfusion, fun hwaits => nomatch hwaits⟩⟩)
  | completed i outcome =>
    simp only [step] at h
    split at h
    case h_2 => exact nomatch h
    case h_1 madeAt pending hi =>
    -- `complete` is answered, which needs no lock
    obtain rfl := Option.some.inj h
    cases outcome with
    | ok _ =>
      exact .inr (.inr ⟨i, _, _, hi, .completed pending _ _, .stayed rfl, rfl, rfl,
        .inr ⟨fun _ => Phase.noConfusion, fun hwaits => nomatch hwaits⟩⟩)
    | error error =>
      exact .inr (.inr ⟨i, _, _, hi, .completed pending _ _, .stayed rfl, rfl, rfl,
        .inr ⟨fun _ => Phase.noConfusion, fun hwaits => nomatch hwaits⟩⟩)
  | drop i =>
    simp only [step] at h
    split at h
    case h_2 => exact nomatch h
    case h_1 call hi =>
    split at h
    case isTrue => exact nomatch h
    -- a call that is not over can be dropped anywhere
    case isFalse hover =>
    obtain rfl := Option.some.inj h
    exact .inr (.inr ⟨i, call, _, hi, .dropped _ (Bool.eq_false_iff.mpr hover), .erased _, rfl, rfl,
      .inl ⟨rfl, rfl⟩⟩)

/-! ### The invariants -/

/-- The queue holds calls that wait, each once. -/
structure Queued (s : State) : Prop where
  nodup : s.queue.Nodup
  waits : ∀ i ∈ s.queue, ∃ call, s.calls[i]? = some call ∧ call.phase.waits = true

/-- What the manager and the calls know of each other. -/
structure Sound (s : State) : Prop where
  made_le : ∀ (i : ℕ) call, s.calls[i]? = some call → call.madeAt ≤ s.clock
  admitted : ∀ (i : ℕ) call, s.calls[i]? = some call → call.phase.admitted = true →
    s.manager.inFlight = true
  single : ∀ (i j : ℕ) a b, s.calls[i]? = some a → s.calls[j]? = some b →
    a.phase.admitted = true → b.phase.admitted = true → i = j
  exclusive : s.manager.inFlight = true → s.manager.pending = none
  pending : ∀ pending, s.manager.pending = some pending →
    pending.provider ∉ s.completions.map (·.pending.provider) ∧
      ∃ call at_, s.calls[pending.provider]? = some call ∧ call.phase.overAt = some at_ ∧
        pending.expiresAt = at_ + enrollmentTtl
  last : ∀ at_, s.manager.lastStart = some at_ → at_ ≤ s.clock ∧
    ∃ (i : ℕ) (call : Call), s.calls[i]? = some call ∧
      ∀ ended, call.phase.overAt = some ended → at_ ≤ ended
  completed : ∀ completion ∈ s.completions, completion.id = completion.pending.id ∧
    completion.at_ < completion.pending.expiresAt ∧
      ∃ call at_, s.calls[completion.pending.provider]? = some call ∧ call.phase.overAt = some at_
  once : (s.completions.map (·.pending.provider)).Nodup

/-- A new call joins the queue, or it does not wait. -/
theorem Queued.call (h : Queued s) (call : Call) :
    Queued
      { s with
        calls := s.calls ++ [call]
        queue := if call.phase.waits then s.queue ++ [s.calls.length] else s.queue } := by
  have hold : ∀ i ∈ s.queue, ∃ found, (s.calls ++ [call])[i]? = some found ∧
      found.phase.waits = true := by
    intro i hi
    obtain ⟨found, hfound, hwaits⟩ := h.waits i hi
    exact ⟨found, concat_of_eq_some hfound, hwaits⟩
  have hnew : s.calls.length ∉ s.queue := by
    intro hmem
    obtain ⟨found, hfound, -⟩ := h.waits _ hmem
    exact absurd (List.getElem?_eq_some_iff.mp hfound).1 (lt_irrefl _)
  -- a call that begins by waiting joins the queue at its end
  by_cases hwaits : call.phase.waits = true
  · rw [if_pos hwaits]
    refine ⟨List.nodup_append.mpr ⟨h.nodup, List.nodup_singleton _, ?_⟩, ?_⟩
    · rintro i hi j hj rfl
      obtain rfl := List.mem_singleton.mp hj
      exact hnew hi
    · intro i hi
      rcases List.mem_append.mp hi with hi | hi
      · exact hold i hi
      · obtain rfl := List.mem_singleton.mp hi
        exact ⟨call, List.getElem?_concat_length, hwaits⟩
  · rw [if_neg hwaits]
    exact ⟨h.nodup, hold⟩

/-- A call that waits is in its place, whatever another one does. -/
theorem Queued.set (h : Queued s) {i j : ℕ} {call : Call} (hj : j ∈ s.queue) (hne : j ≠ i) :
    ∃ found, (s.calls.set i call)[j]? = some found ∧ found.phase.waits = true := by
  obtain ⟨found, hfound, hwaits⟩ := h.waits j hj
  exact ⟨found, (set_other hne).trans hfound, hwaits⟩

/-- The queue stays the list of the calls that wait. -/
theorem Queued.moves (h : Queued s) {i : ℕ} {call : Call} {phase : Phase}
    (hi : s.calls[i]? = some call) (hq : Queues i call.phase phase s.queue s'.queue)
    (hcalls : s'.calls = s.calls.set i ⟨call.madeAt, phase⟩) : Queued s' := by
  have hnodup := h.nodup
  -- the others wait as they did
  have hkeep : ∀ j ∈ s.queue, j ≠ i → ∃ found, s'.calls[j]? = some found ∧
      found.phase.waits = true := by
    intro j hj hne
    rw [hcalls]
    exact h.set hj hne
  -- who does not wait is not in the queue
  have hout : call.phase.waits = false → i ∉ s.queue := by
    intro hwaits hmem
    obtain ⟨found, hfound, hfoundWaits⟩ := h.waits i hmem
    rw [hi] at hfound
    obtain rfl := Option.some.inj hfound
    exact nomatch hwaits.symm.trans hfoundWaits
  generalize hqueue : s.queue = queue at hq hnodup hkeep hout
  generalize hqueue' : s'.queue = queue' at hq
  -- the four things that can happen to the queue
  cases hq with
  | left hwaits =>
    rw [List.nodup_cons] at hnodup
    refine ⟨hqueue' ▸ hnodup.2, fun j hj => ?_⟩
    rw [hqueue'] at hj
    exact hkeep j (List.mem_cons_of_mem i hj) fun heq => hnodup.1 (heq ▸ hj)
  | joined hwaits hwaits' =>
    refine ⟨?_, fun j hj => ?_⟩
    · rw [hqueue', List.nodup_append]
      refine ⟨hnodup, List.nodup_singleton _, ?_⟩
      rintro j hj k hk rfl
      obtain rfl := List.mem_singleton.mp hk
      exact hout hwaits hj
    · rw [hqueue'] at hj
      rcases List.mem_append.mp hj with hj | hj
      · exact hkeep j hj fun heq => hout hwaits (heq ▸ hj)
      · obtain rfl := List.mem_singleton.mp hj
        refine ⟨⟨call.madeAt, phase⟩, ?_, hwaits'⟩
        rw [hcalls, set_self hi]
  | stayed hwaits =>
    refine ⟨hqueue' ▸ hnodup, fun j hj => ?_⟩
    rw [hqueue'] at hj
    exact hkeep j hj fun heq => hout hwaits (heq ▸ hj)
  | erased at_ =>
    refine ⟨hqueue' ▸ hnodup.erase i, fun j hj => ?_⟩
    rw [hqueue', hnodup.mem_erase_iff] at hj
    exact hkeep j hj.2 hj.1

/-- Every step keeps the queue. -/
theorem Queued.step (h : Queued s) (hs : step parseStr s event = some s') : Queued s' := by
  rcases step_cases hs with
    ⟨duration, rfl⟩ | ⟨request, rfl⟩ | ⟨i, call, phase, hi, -, hq, -, hcalls, -⟩
  · exact ⟨h.nodup, h.waits⟩
  · exact h.call ⟨s.clock, _⟩
  · exact h.moves hi hq hcalls

/-- A call that is over is in its place after every step. -/
theorem kept_of_over {i j : ℕ} {call found : Call} {phase : Phase} {at_ : ℕ}
    (hi : s.calls[i]? = some call) (hover : call.phase.overAt = none)
    (hj : s.calls[j]? = some found) (hat : found.phase.overAt = some at_) :
    (s.calls.set i ⟨call.madeAt, phase⟩)[j]? = some found := by
  rcases eq_or_ne j i with rfl | hne
  · obtain rfl := Option.some.inj (hi.symm.trans hj)
    exact nomatch hover.symm.trans hat
  · exact (set_other hne).trans hj

/-- Time that passes only makes the bounds easier. -/
theorem Sound.tick (h : Sound s) (duration : ℕ) :
    Sound { s with clock := s.clock + duration } where
  made_le i call hi := (h.made_le i call hi).trans (Nat.le_add_right _ _)
  admitted := h.admitted
  single := h.single
  exclusive := h.exclusive
  pending := h.pending
  last at_ hat := ⟨(h.last at_ hat).1.trans (Nat.le_add_right _ _), (h.last at_ hat).2⟩
  completed := h.completed
  once := h.once

/-- A new call is not admitted, so it adds nothing to any clause. -/
theorem Sound.call (h : Sound s) {phase : Phase} (hphase : phase.admitted = false)
    (queue : List ℕ) :
    Sound { s with calls := s.calls ++ [⟨s.clock, phase⟩], queue } where
  made_le i call hi := by
    rcases of_concat_eq_some hi with ⟨-, rfl⟩ | ⟨-, hold⟩
    · exact le_rfl
    · exact h.made_le i call hold
  admitted i call hi hadmitted := by
    rcases of_concat_eq_some hi with ⟨-, rfl⟩ | ⟨-, hold⟩
    -- the new call is not admitted
    · exact nomatch hphase.symm.trans hadmitted
    · exact h.admitted i call hold hadmitted
  single i j a b hi hj ha hb := by
    rcases of_concat_eq_some hi with ⟨-, rfl⟩ | ⟨-, hold⟩
    · exact nomatch hphase.symm.trans ha
    · rcases of_concat_eq_some hj with ⟨-, rfl⟩ | ⟨-, hold'⟩
      · exact nomatch hphase.symm.trans hb
      · exact h.single i j a b hold hold' ha hb
  exclusive := h.exclusive
  pending pending hpending := by
    obtain ⟨hnew, call, at_, hcall, hat, hexpires⟩ := h.pending pending hpending
    -- the calls that are over are those of before
    exact ⟨hnew, call, at_, concat_of_eq_some hcall, hat, hexpires⟩
  last at_ hat := by
    obtain ⟨hle, i, call, hi, hover⟩ := h.last at_ hat
    exact ⟨hle, i, call, concat_of_eq_some hi, hover⟩
  completed completion hmem := by
    obtain ⟨hid, hlive, call, at_, hcall, hat⟩ := h.completed completion hmem
    exact ⟨hid, hlive, call, at_, concat_of_eq_some hcall, hat⟩
  once := h.once

/-- A call moves on: the case analysis is over `Moves`. -/
theorem Sound.moves (h : Sound s) {i : ℕ} {call : Call} {phase : Phase}
    (hi : s.calls[i]? = some call)
    (hmoves : Moves s.manager s.clock i s.completions call.phase phase s'.manager s'.completions)
    (hclock : s'.clock = s.clock) (hcalls : s'.calls = s.calls.set i ⟨call.madeAt, phase⟩) :
    Sound s' := by
  have hself : s'.calls[i]? = some ⟨call.madeAt, phase⟩ := by
    rw [hcalls, set_self hi]
  have hkept : ∀ (j : ℕ) found at_, s.calls[j]? = some found → found.phase.overAt = some at_ →
      s'.calls[j]? = some found := by
    intro j found at_ hj hat
    rw [hcalls]
    exact kept_of_over hi hmoves.overAt hj hat
  -- an admitted call of the new state was admitted before, or it is the one that moved
  -- the phase that was reached, at the place of the call
  have hold : ∀ (j : ℕ) found, s'.calls[j]? = some found → j ≠ i → s.calls[j]? = some found := by
    intro j found hj hne
    rw [hcalls] at hj
    exact (set_other hne).symm.trans hj
  have hphase : ∀ found, s'.calls[i]? = some found → found.phase = phase := by
    intro found hfound
    rw [hself] at hfound
    rw [← Option.some.inj hfound]
  refine ⟨?_, ?_, ?_, ?_, ?_, ?_, ?_, ?_⟩
  · intro j found hj
    rw [hclock]
    rcases eq_or_ne j i with rfl | hne
    · rw [hself] at hj
      obtain rfl := Option.some.inj hj
      exact h.made_le j call hi
    · exact h.made_le j found (hold j found hj hne)
  · intro j found hj hadmitted
    -- the flag stays set as long as somebody is admitted
    rcases hmoves.inFlight with ⟨hflight, hsame⟩ | ⟨-, htrue, -, -⟩ | ⟨hbefore, hafter, -⟩ |
      ⟨hdropped, heq⟩
    · rw [hflight]
      rcases eq_or_ne j i with rfl | hne
      · rw [hphase found hj, hsame] at hadmitted
        exact h.admitted j call hi hadmitted
      · exact h.admitted j found (hold j found hj hne) hadmitted
    -- it has just been admitted, and the flag is set with it
    · exact htrue
    · rcases eq_or_ne j i with rfl | hne
      · rw [hphase found hj] at hadmitted
        exact nomatch hafter.symm.trans hadmitted
      -- the outcome that clears the flag was that of the only admitted call
      · exact absurd (h.single j i found call (hold j found hj hne) hi hadmitted hbefore) hne
    · rw [heq]
      rcases eq_or_ne j i with rfl | hne
      · rw [hphase found hj, hdropped] at hadmitted
        exact nomatch hadmitted
      -- a dropped call leaves the flag, which is what the condition on runs is about
      · exact h.admitted j found (hold j found hj hne) hadmitted
  · intro j k a b hj hk ha hb
    -- another admitted call rules out that this one was just admitted
    have hother : ∀ (l : ℕ) found, s'.calls[l]? = some found → l ≠ i → found.phase.admitted = true →
        phase.admitted = true → l = i := by
      intro l found hl hne hfound hnow
      have hbefore := h.admitted l found (hold l found hl hne) hfound
      rcases hmoves.inFlight with ⟨-, hsame⟩ | ⟨hfalse, -, -, -⟩ | ⟨-, hafter, -⟩ | ⟨hdropped, -⟩
      · exact h.single l i found call (hold l found hl hne) hi hfound (hsame ▸ hnow)
      · exact nomatch hfalse.symm.trans hbefore
      · exact nomatch hafter.symm.trans hnow
      · rw [hdropped] at hnow
        exact nomatch hnow
    rcases eq_or_ne j i with hji | hne <;> rcases eq_or_ne k i with hki | hne'
    · exact hji.trans hki.symm
    · exact absurd (hother k b hk hne' hb (hphase a (hji ▸ hj) ▸ ha)) hne'
    · exact absurd (hother j a hj hne ha (hphase b (hki ▸ hk) ▸ hb)) hne
    · exact h.single j k a b (hold j a hj hne) (hold k b hk hne') ha hb
  · intro hflight
    rw [Option.eq_none_iff_forall_ne_some]
    intro pending hpending
    -- with the flag set, nothing is pending: nothing new is pending then either
    rcases hmoves.inFlight with ⟨hsame, -⟩ | ⟨-, -, hnone, -⟩ | ⟨-, -, hfalse⟩ | ⟨-, heq⟩
    · rcases hmoves.pending hpending with ⟨hbefore, -⟩ | ⟨-, -, -, hfalse, -⟩
      · exact nomatch (h.exclusive (hsame ▸ hflight)).symm.trans hbefore
      · exact nomatch hfalse.symm.trans hflight
    · exact nomatch hnone.symm.trans hpending
    · exact nomatch hfalse.symm.trans hflight
    · rw [heq] at hflight hpending
      exact nomatch (h.exclusive hflight).symm.trans hpending
  · intro pending hpending
    -- the pending enrolment is the one of before, or it has just been made by this call
    rcases hmoves.pending hpending with ⟨hbefore, hsame⟩ | ⟨hprovider, hexpires, hover, -, hsame⟩
    · obtain ⟨hnew, found, at_, hfound, hat, hexpires⟩ := h.pending pending hbefore
      rw [hsame]
      exact ⟨hnew, found, at_, hkept _ found at_ hfound hat, hat, hexpires⟩
    · rw [hsame, hprovider]
      refine ⟨?_, _, s.clock, hself, hover, hexpires⟩
      -- the enrolments that were completed are those of calls that were over
      intro hmem
      obtain ⟨completion, hcompletion, heq⟩ := List.mem_map.mp hmem
      obtain ⟨-, -, found, at_, hfound, hat⟩ := h.completed completion hcompletion
      rw [heq, hi] at hfound
      obtain rfl := Option.some.inj hfound
      exact nomatch hmoves.overAt.symm.trans hat
  · intro at_ hat
    rw [hclock]
    -- the start of this call is the last one, or the one of before is
    rcases hmoves.lastStart with hsame | hnow
    · rw [hsame] at hat
      obtain ⟨hle, j, found, hj, hover⟩ := h.last at_ hat
      refine ⟨hle, ?_⟩
      rcases eq_or_ne j i with rfl | hne
      · refine ⟨j, _, hself, fun ended hnew => ?_⟩
        rw [hmoves.overAt_now hnew]
        exact hle
      · refine ⟨j, found, ?_, hover⟩
        rw [hcalls]
        exact (set_other hne).trans hj
    · rw [hnow] at hat
      obtain rfl := Option.some.inj hat
      exact ⟨le_rfl, i, _, hself, fun ended hnew => (hmoves.overAt_now hnew).ge⟩
  · intro completion hmem
    have hbefore : ∀ completion ∈ s.completions, completion.id = completion.pending.id ∧
        completion.at_ < completion.pending.expiresAt ∧
          ∃ call at_, s'.calls[completion.pending.provider]? = some call ∧
            call.phase.overAt = some at_ := by
      intro completion hmem
      obtain ⟨hid, hlive, found, at_, hfound, hat⟩ := h.completed completion hmem
      exact ⟨hid, hlive, found, at_, hkept _ found at_ hfound hat, hat⟩
    -- a completion is new only when `verify` has taken the pending enrolment
    rcases hmoves.completions_cases with hsame | ⟨pending, hpending, hlive, -, hadded⟩
    · exact hbefore completion (hsame ▸ hmem)
    · rw [hadded] at hmem
      rcases List.mem_append.mp hmem with hmem | hmem
      · exact hbefore completion hmem
      · obtain rfl := List.mem_singleton.mp hmem
        obtain ⟨-, found, at_, hfound, hat, -⟩ := h.pending pending hpending
        exact ⟨rfl, hlive, found, at_, hkept _ found at_ hfound hat, hat⟩
  · rcases hmoves.completions_cases with hsame | ⟨pending, hpending, -, -, hadded⟩
    · rw [hsame]
      exact h.once
    · rw [hadded, List.map_append, List.nodup_append]
      refine ⟨h.once, List.nodup_singleton _, ?_⟩
      -- the provider of the pending enrolment has completed nothing yet
      rintro provider hmem other hother rfl
      obtain rfl := List.mem_singleton.mp hother
      exact (h.pending pending hpending).1 hmem

/-- Every step keeps the invariant. -/
theorem Sound.step (h : Sound s) (hs : step parseStr s event = some s') : Sound s' := by
  rcases step_cases hs with ⟨duration, rfl⟩ | ⟨request, rfl⟩ |
    ⟨i, call, phase, hi, hmoves, -, hclock, hcalls, -⟩
  · exact h.tick duration
  · exact h.call (request.begin_cases parseStr s.clock).1 _
  · exact h.moves hi hmoves hclock hcalls

/-- No `start` is dropped between its admission and its outcome. -/
def Undisturbed (s : State) : Event → Prop
  | .drop i => ∀ call ∈ s.calls[i]?, call.phase.admitted = false
  | _ => True

instance : ∀ (s : State) (event : Event), Decidable (Undisturbed s event)
  | s, .drop i => inferInstanceAs (Decidable (∀ call ∈ s.calls[i]?, call.phase.admitted = false))
  | _, .tick _ | _, .call _ | _, .enter _ | _, .outcome _ _ | _, .completed _ _ =>
    inferInstanceAs (Decidable True)

/-- The flag is set only while a `start` waits for its provider. -/
def Flying (s : State) : Prop :=
  s.manager.inFlight = true → ∃ (i : ℕ) (call : Call), s.calls[i]? = some call ∧
    call.phase.admitted = true

/-- Without a dropped `start` the flag belongs to an admitted call. -/
theorem Flying.step (h : Flying s) (hok : Undisturbed s event)
    (hs : step parseStr s event = some s') : Flying s' := by
  intro hflight
  rcases step_cases hs with ⟨duration, rfl⟩ | ⟨request, rfl⟩ |
    ⟨i, call, phase, hi, hmoves, -, -, hcalls, hdrop⟩
  -- time changes neither flag nor calls
  · exact h hflight
  · obtain ⟨j, found, hj, hadmitted⟩ := h hflight
    exact ⟨j, found, concat_of_eq_some hj, hadmitted⟩
  · have hself : s'.calls[i]? = some ⟨call.madeAt, phase⟩ := by
      rw [hcalls, set_self hi]
    have hother : ∀ (j : ℕ) found, s.calls[j]? = some found → j ≠ i →
        s'.calls[j]? = some found := by
      intro j found hj hne
      rw [hcalls]
      exact (set_other hne).trans hj
    -- the same four cases of the flag as above
    rcases hmoves.inFlight with ⟨hsame, hadmitted⟩ | ⟨-, -, -, hadmitted⟩ | ⟨-, -, hfalse⟩ |
      ⟨hdropped, heq⟩
    · obtain ⟨j, found, hj, hfound⟩ := h (hsame ▸ hflight)
      rcases eq_or_ne j i with rfl | hne
      · obtain rfl := Option.some.inj (hi.symm.trans hj)
        exact ⟨j, _, hself, hadmitted.trans hfound⟩
      · exact ⟨j, found, hother j found hj hne, hfound⟩
    -- the call that moved is the admitted one
    · exact ⟨i, _, hself, hadmitted⟩
    -- the flag was cleared
    · exact nomatch hfalse.symm.trans hflight
    · -- the call that is dropped was not admitted, so the flag belongs to another one
      obtain ⟨j, found, hj, hfound⟩ := h (heq ▸ hflight)
      obtain ⟨rfl, -⟩ | ⟨hnot, -⟩ := hdrop
      case inr => exact absurd hdropped (hnot _)
      have hne : j ≠ i := by
        rintro rfl
        exact nomatch (hok found hj).symm.trans hfound
      exact ⟨j, found, hother j found hj hne, hfound⟩

/-- Every earlier call was over more than 120 seconds before this one was made. -/
def Rested (s : State) (i : ℕ) (call : Call) : Prop :=
  ∀ (j : ℕ) earlier, j < i → s.calls[j]? = some earlier →
    ∃ at_, earlier.phase.overAt = some at_ ∧ at_ + enrollmentTtl < call.madeAt

/-- The call is the next to get the lock, and it will find nothing in its way. -/
structure Ready (s : State) (i : ℕ) (call : Call) : Prop where
  first : s.queue.head? = some i
  idle : s.manager.inFlight = false
  expired : ∀ pending, s.manager.pending = some pending → pending.expiresAt ≤ call.madeAt
  cooled : ∀ at_, s.manager.lastStart = some at_ → at_ + startCooldown ≤ call.madeAt

/-- A `start` that was made after a rest is ready, as long as it waits. -/
def Prepared (s : State) : Prop :=
  ∀ (i : ℕ) call, s.calls[i]? = some call → call.phase = .starting → Rested s i call →
    Ready s i call

/-- The state at rest, when a call is made. -/
theorem Sound.ready (h : Sound s) (hq : Queued s) (hf : Flying s) {call : Call} {queue : List ℕ}
    (hrest : ∀ (j : ℕ) earlier, s.calls[j]? = some earlier →
      ∃ at_, earlier.phase.overAt = some at_ ∧ at_ + enrollmentTtl < call.madeAt)
    (hqueue : queue = s.queue ++ [s.calls.length]) :
    Ready { s with calls := s.calls ++ [call], queue } s.calls.length call where
  first := by
    -- whoever waits is not over
    have hempty : s.queue = [] := by
      rw [List.eq_nil_iff_forall_not_mem]
      intro j hj
      obtain ⟨found, hfound, hwaits⟩ := hq.waits j hj
      obtain ⟨at_, hat, -⟩ := hrest j found hfound
      exact nomatch (Phase.overAt_of_waits hwaits).symm.trans hat
    show queue.head? = _
    rw [hqueue, hempty]
    rfl
  idle := by
    rw [Bool.eq_false_iff]
    -- nor is whoever is admitted
    intro hflight
    obtain ⟨j, found, hfound, hadmitted⟩ := hf hflight
    obtain ⟨at_, hat, -⟩ := hrest j found hfound
    exact nomatch (Phase.overAt_of_admitted hadmitted).symm.trans hat
  expired pending hpending := by
    -- the pending enrolment is that of a call that was over long ago
    obtain ⟨-, found, at_, hfound, hat, hexpires⟩ := h.pending pending hpending
    obtain ⟨ended, hover, hlt⟩ := hrest _ found hfound
    obtain rfl := Option.some.inj (hat.symm.trans hover)
    rw [hexpires]
    exact hlt.le
  cooled at_ hat := by
    -- and so is the last start
    obtain ⟨-, j, found, hfound, hle⟩ := h.last at_ hat
    obtain ⟨ended, hover, hlt⟩ := hrest j found hfound
    calc at_ + startCooldown ≤ ended + enrollmentTtl :=
        Nat.add_le_add (hle ended hover) (by decide)
      _ ≤ call.madeAt := hlt.le

/-- A call that gets over now was not over before this one was made. -/
theorem Rested.of_moves (h : Sound s) {i j : ℕ} {call found : Call} {phase : Phase}
    {manager : Manager} {completions : List Completion} (hi : s.calls[i]? = some call)
    (hmoves : Moves s.manager s.clock i s.completions call.phase phase manager completions)
    (hcalls : s'.calls = s.calls.set i ⟨call.madeAt, phase⟩)
    (hj : s.calls[j]? = some found) (hrest : Rested s' j found) : Rested s j found := by
  intro k earlier hlt hk
  -- the call that moves is over now at the earliest, which is after this one was made
  rcases eq_or_ne k i with rfl | hne
  · have hnew : s'.calls[k]? = some ⟨call.madeAt, phase⟩ := by
      rw [hcalls, set_self hi]
    obtain ⟨at_, hat, hbefore⟩ := hrest k _ hlt hnew
    rw [hmoves.overAt_now hat] at hbefore
    have hmade := h.made_le j found hj
    omega
  · refine hrest k earlier hlt ?_
    rw [hcalls]
    exact (set_other hne).trans hk

/-- The first in the queue stays first while it waits. -/
theorem Queues.head {i j : ℕ} {phase phase' : Phase} {queue queue' : List ℕ}
    (h : Queues i phase phase' queue queue') (hne : j ≠ i) (hj : queue.head? = some j) :
    queue'.head? = some j := by
  cases h with
  | left hwaits => exact absurd (Option.some.inj hj).symm hne
  | joined hwaits hwaits' =>
    rw [List.head?_append, hj, Option.some_or]
  | stayed hwaits => exact hj
  | erased at_ =>
    cases queue with
    | nil => exact nomatch hj
    -- an earlier call is dropped, so the first stays first
    | cons first rest =>
      obtain rfl := Option.some.inj hj
      rw [List.erase_cons_tail (by simpa using hne)]
      rfl

/-- The other calls leave the manager alone while a call is first in the queue. -/
theorem Moves.idle {m manager : Manager} {now i : ℕ} {done completions : List Completion}
    {phase phase' : Phase} {queue queue' : List ℕ}
    (h : Moves m now i done phase phase' manager completions)
    (hq : Queues i phase phase' queue queue') {j : ℕ} (hne : j ≠ i) (hj : queue.head? = some j) :
    manager.inFlight = m.inFlight ∧ manager.pending = m.pending ∧
      manager.lastStart = m.lastStart := by
  -- without the lock a call only gets an answer, completes, or is dropped
  have hwaits : phase.waits = false ∨ ∃ at_, phase' = .dropped at_ := by
    cases hq with
    | left => exact absurd (Option.some.inj hj).symm hne
    | joined hwaits => exact .inl hwaits
    | stayed hwaits => exact .inl hwaits
    | erased at_ => exact .inr ⟨at_, rfl⟩
  rcases hwaits with hwaits | ⟨at_, hdropped⟩
  · cases h with
    | returned => exact ⟨rfl, rfl, rfl⟩
    | completed => exact ⟨rfl, rfl, rfl⟩
    | dropped => exact ⟨rfl, rfl, rfl⟩
    | _ => exact nomatch hwaits
  · cases h with
    | dropped => exact ⟨rfl, rfl, rfl⟩
    | _ => exact nomatch hdropped

/-- A `start` that was made at rest stays ready until it gets the lock. -/
theorem Prepared.step (h : Prepared s) (hsound : Sound s) (hq : Queued s) (hf : Flying s)
    (hs : step parseStr s event = some s') : Prepared s' := by
  intro j found hj hstarting hrest
  rcases step_cases hs with ⟨duration, rfl⟩ | ⟨request, rfl⟩ |
    ⟨i, call, phase, hi, hmoves, hqueues, -, hcalls, -⟩
  -- time does not touch the manager
  · obtain ⟨hfirst, hidle, hexpired, hcooled⟩ := h j found hj hstarting hrest
    exact ⟨hfirst, hidle, hexpired, hcooled⟩
  · rcases of_concat_eq_some hj with ⟨rfl, rfl⟩ | ⟨-, hold⟩
    · -- the new call: all the others are over
      have hwaits : (request.begin parseStr s.clock).waits = true := by
        rw [show request.begin parseStr s.clock = .starting from hstarting]
        rfl
      refine hsound.ready hq hf (fun k earlier hk => ?_) (if_pos hwaits)
      exact hrest k earlier (List.getElem?_eq_some_iff.mp hk).1 (concat_of_eq_some hk)
    -- a later call joins behind it
    · have hbefore := h j found hold hstarting fun k earlier hlt hk =>
        hrest k earlier hlt (concat_of_eq_some hk)
      obtain ⟨hfirst, hidle, hexpired, hcooled⟩ := hbefore
      refine ⟨?_, hidle, hexpired, hcooled⟩
      show (if _ then s.queue ++ _ else s.queue).head? = some j
      split
      · rw [List.head?_append, hfirst, Option.some_or]
      · exact hfirst
  -- another call moves, and leaves the manager alone
  · rcases eq_or_ne j i with rfl | hne
    · rw [hcalls, set_self hi] at hj
      obtain rfl := Option.some.inj hj
      obtain rfl : phase = .starting := hstarting
      exact absurd rfl hmoves.ne_starting
    · rw [hcalls, set_other hne] at hj
      have hbefore := h j found hj hstarting (Rested.of_moves hsound hi hmoves hcalls hj hrest)
      obtain ⟨hflight, hpending, hlast⟩ := hmoves.idle hqueues hne hbefore.first
      refine ⟨hqueues.head hne hbefore.first, hflight.trans hbefore.idle, ?_, ?_⟩
      · rw [hpending]
        exact hbefore.expired
      · rw [hlast]
        exact hbefore.cooled

/-- A call that is ready is admitted when it gets the lock. -/
theorem Ready.enter {i : ℕ} {call : Call} (h : Ready s i call) (hi : s.calls[i]? = some call)
    (hstarting : call.phase = .starting) (hmade : call.madeAt ≤ s.clock) (id : Uuid) :
    ∃ s', Enrollment.step parseStr s (.enter id) = some s' ∧
      s'.calls[i]? = some ⟨call.madeAt, .requesting id⟩ := by
  obtain ⟨queue, hqueue⟩ := List.head?_eq_some_iff.mp h.first
  -- what was pending has expired by now
  have hnone : (s.manager.expire s.clock).pending = none := by
    rw [Option.eq_none_iff_forall_ne_some]
    intro pending hpending
    obtain ⟨hsome, hlt⟩ := Manager.expire_pending.mp hpending
    exact absurd ((h.expired pending hsome).trans hmade) (not_le.mpr hlt)
  -- the cooldown is over
  have hcool : ¬(s.manager.expire s.clock).lastStart.any fun last =>
      s.clock < last + startCooldown := by
    rw [Manager.expire_lastStart]
    intro hany
    obtain ⟨last, hlast, hlt⟩ := (Option.any_eq_true _ _).mp hany
    exact absurd ((h.cooled last hlast).trans hmade) (not_le.mpr (of_decide_eq_true hlt))
  have hslot : s.manager.takeSlot s.clock =
      (.ok (), { s.manager.expire s.clock with lastStart := some s.clock, inFlight := true }) := by
    rw [Manager.takeSlot, if_neg, if_neg hcool]
    rw [hnone, Manager.expire_inFlight, h.idle]
    decide
  -- so the slot is taken
  refine ⟨{ s with
    manager := { s.manager.expire s.clock with lastStart := some s.clock, inFlight := true }
    calls := s.calls.set i ⟨call.madeAt, .requesting id⟩
    queue }, ?_, ?_⟩
  · simp only [Enrollment.step, hqueue, hi, State.enter, hstarting, hslot]
    rfl
  · exact set_self hi

/-- A run in which no `start` is dropped between its admission and its outcome. The flag is set only
while a `start` waits for its provider; at most one enrolment is pending or in flight; an enrolment
is completed at most once, by a `verify` with its identifier before it expires; while it has not
expired, only a `verify` or a `cancel` with its identifier removes it, and a `cancel` with another
one never does; and a `start` that was made more than 120 seconds after all earlier calls were over
is admitted. -/
theorem enrollment_progresses {clock : ℕ} {events : List Event}
    (hok : EventSystem.Steps (step parseStr) Undisturbed { clock } events)
    (hrun : EventSystem.run (step parseStr) { clock } events = some s) :
    (s.manager.inFlight = true → ∃ (i : ℕ) (call : Call), s.calls[i]? = some call ∧
      call.phase.admitted = true) ∧
      (∀ (i : ℕ) a, s.calls[i]? = some a → a.phase.admitted = true →
        s.manager.pending = none ∧
          ∀ (j : ℕ) b, s.calls[j]? = some b → b.phase.admitted = true → i = j) ∧
      ((s.completions.map (·.pending.provider)).Nodup ∧
        ∀ completion ∈ s.completions, completion.id = completion.pending.id ∧
          completion.at_ < completion.pending.expiresAt) ∧
      (∀ event s' pending, step parseStr s event = some s' → s.manager.pending = some pending →
        s'.manager.pending = some pending ∨
          ∃ id i call, event = .enter id ∧ s.queue.head? = some i ∧ s.calls[i]? = some call ∧
            (call.phase = .verifying pending.id ∨ call.phase = .cancelling pending.id ∨
              pending.expiresAt ≤ s.clock ∧
                (call.phase = .starting ∨ ∃ id, call.phase = .verifying id))) ∧
      ∀ (i : ℕ) call, s.calls[i]? = some call → call.phase = .starting → Rested s i call →
        ∀ id, ∃ s', step parseStr s (.enter id) = some s' ∧
          s'.calls[i]? = some ⟨call.madeAt, .requesting id⟩ := by
  -- the empty run has no calls
  have hnone : ∀ (i : ℕ) call, ([] : List Call)[i]? ≠ some call := fun i call h =>
    Option.some_ne_none call (h.symm.trans List.getElem?_nil)
  -- the four invariants hold together
  obtain ⟨hsound, hqueued, hflying, hprepared⟩ : Sound s ∧ Queued s ∧ Flying s ∧ Prepared s := by
    refine EventSystem.run_invariant (fun s => Sound s ∧ Queued s ∧ Flying s ∧ Prepared s) ?_ ?_
      hok hrun
    -- each of them by its step lemma
    · rintro m event m' ⟨hsound, hqueued, hflying, hprepared⟩ hundisturbed hs
      exact ⟨hsound.step hs, hqueued.step hs, hflying.step hundisturbed hs,
        hprepared.step hsound hqueued hflying hs⟩
    · refine ⟨⟨?_, ?_, ?_, ?_, ?_, ?_, ?_, ?_⟩, ⟨?_, ?_⟩, ?_, ?_⟩
      · exact fun i call hi => absurd hi (hnone i call)
      · exact fun i call hi => absurd hi (hnone i call)
      · exact fun i _ a _ hi => absurd hi (hnone i a)
      · exact fun hflight => nomatch hflight
      · exact fun _ hpending => nomatch hpending
      · exact fun _ hlast => nomatch hlast
      · exact fun _ hmem => absurd hmem List.not_mem_nil
      · exact List.nodup_nil
      · exact List.nodup_nil
      · exact fun _ hmem => absurd hmem List.not_mem_nil
      · exact fun hflight => nomatch hflight
      · exact fun i call hi => absurd hi (hnone i call)
  -- the clauses are read off the invariants
  refine ⟨hflying, ?_, ⟨hsound.once, ?_⟩, ?_, ?_⟩
  · intro i a hi ha
    refine ⟨hsound.exclusive (hsound.admitted i a hi ha), fun j b hj hb => ?_⟩
    exact hsound.single i j a b hi hj ha hb
  · intro completion hmem
    obtain ⟨hid, hlive, -⟩ := hsound.completed completion hmem
    exact ⟨hid, hlive⟩
  -- a pending enrolment goes away only under the lock, by a call that names it or finds it expired
  · intro event s' pending hs hpending
    rcases step_cases hs with ⟨duration, rfl⟩ | ⟨request, rfl⟩ |
      ⟨i, call, phase, hi, hmoves, -, -, -, hevent⟩
    · exact .inl hpending
    · exact .inl hpending
    · have hexclusive : call.phase.admitted = true → s.manager.pending = none :=
        fun hadmitted => hsound.exclusive (hsound.admitted i call hi hadmitted)
      rcases hmoves.keeps hexclusive hpending with hkept | hgone
      · exact .inl hkept
      -- a dropped call leaves the manager alone
      · rcases hevent with ⟨rfl, rfl⟩ | ⟨-, henter⟩
        · exact .inl (hmoves.dropped_manager ▸ hpending)
        -- the phases that remove it wait for the lock
        · have hwaits : call.phase.waits = true := by
            rcases hgone with hphase | hphase | ⟨-, hphase | ⟨id, hphase⟩⟩ <;> rw [hphase] <;> rfl
          obtain ⟨⟨id, rfl⟩, hhead⟩ := henter hwaits
          exact .inr ⟨id, i, call, rfl, hhead, hi, hgone⟩
  -- the last clause: a `start` at rest is admitted
  · intro i call hi hstarting hrest id
    exact (hprepared i call hi hstarting hrest).enter hi hstarting (hsound.made_le i call hi) id

end

def sampleParse (text : String) : Option Uuid :=
  if text = "00000000-0000-0000-0000-000000000007" then some 7 else none

/-- An enrolment with a second factor. A `start` before it is dropped as it waits for the lock, a
`verify` is dropped before its turn, and another `start` comes two minutes and a second later. -/
def sampleEnrollment : List Event :=
  [.call (.start { account := "owner", password := "secret" }), .drop 0,
    .call (.start { account := "owner", password := "secret" }), .enter 7, .outcome 1 (.ok .mfa),
    .enter 0, .call (.verify "00000000-0000-0000-0000-000000000007"), .drop 2,
    .call (.verify "00000000-0000-0000-0000-000000000007"), .enter 0, .completed 3 (.ok ()),
    .tick 121000000000, .call (.start { account := "owner", password := "secret" })]

/-- An enrolment with two dropped calls, and a later `start` that is ready. -/
theorem enrollment_progresses_sample :
    ∃ s, EventSystem.run (step sampleParse) { clock := 5 } sampleEnrollment = some s ∧
      s.completions = [⟨⟨7, 1, 120000000005⟩, 7, 5⟩] ∧ s.manager.ready = true ∧
      (s.calls.take 4).map (·.phase) =
        [.dropped 5, .ended 5 (.ok (.started 7 "otp" 120)), .dropped 5, .ended 5 (.ok .verified)] ∧
      Rested s 4 ⟨121000000005, .starting⟩ ∧
      ∃ s', step sampleParse s (.enter 8) = some s' ∧
        s'.calls[4]? = some ⟨121000000005, .requesting 8⟩ := by
  have hok : EventSystem.Steps (step sampleParse) Undisturbed { clock := 5 } sampleEnrollment := by
    decide +kernel
  have hsome : (EventSystem.run (step sampleParse) { clock := 5 } sampleEnrollment).isSome := by
    decide +kernel
  have hstate : ∀ s ∈ EventSystem.run (step sampleParse) { clock := 5 } sampleEnrollment,
      s.completions = [⟨⟨7, 1, 120000000005⟩, 7, 5⟩] ∧ s.manager.ready = true ∧
        s.calls = [⟨5, .dropped 5⟩, ⟨5, .ended 5 (.ok (.started 7 "otp" 120))⟩, ⟨5, .dropped 5⟩,
          ⟨5, .ended 5 (.ok .verified)⟩, ⟨121000000005, .starting⟩] := by
    decide +kernel
  obtain ⟨s, hs⟩ := Option.isSome_iff_exists.mp hsome
  obtain ⟨hcompletions, hready, hcalls⟩ := hstate s hs
  -- the four earlier calls were over when the clock stood at five
  have hover : ∀ call ∈ s.calls.take 4, call.phase.overAt = some 5 := by
    rw [hcalls]
    decide +kernel
  have hrest : Rested s 4 ⟨121000000005, .starting⟩ := by
    intro j earlier hlt hj
    refine ⟨5, hover earlier (List.mem_of_getElem? ((List.getElem?_take_of_lt hlt).trans hj)), ?_⟩
    decide
  have hcall : s.calls[4]? = some ⟨121000000005, .starting⟩ := by
    rw [hcalls]
    rfl
  have hphases : (s.calls.take 4).map (·.phase) = [.dropped 5,
      .ended 5 (.ok (.started 7 "otp" 120)), .dropped 5, .ended 5 (.ok .verified)] := by
    rw [hcalls]
    rfl
  obtain ⟨-, -, -, -, hstart⟩ := enrollment_progresses hok hs
  exact ⟨s, hs, hcompletions, hready, hphases, hrest, hstart 4 _ hcall rfl hrest 8⟩

/-- The client of a `start` goes while the provider is asked. The flag stays set with no call left,
and a `start` eleven days later is refused. -/
theorem start_refused_after_drop :
    ∃ s, EventSystem.run (step sampleParse) {}
        [.call (.start { account := "owner", password := "secret" }), .enter 7, .drop 0,
          .tick 1000000000000000, .call (.start { account := "owner", password := "secret" }),
          .enter 8] = some s ∧
      s.manager.inFlight = true ∧
      s.calls = [⟨0, .dropped 0⟩,
        ⟨1000000000000000, .ended 1000000000000000 (.error .enrollmentBusy)⟩] ∧
      0 + enrollmentTtl < 1000000000000000 := by
  refine ⟨_, rfl, ?_, ?_, ?_⟩ <;> decide +kernel

end Enrollment

end EzvizBridge
