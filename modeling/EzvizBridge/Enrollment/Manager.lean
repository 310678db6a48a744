import EzvizBridge.Alarms.Model
import EzvizBridge.Lib.EventSystem

/-!
# Enrolment

`enrollment.rs`, as an event system. `start`, `verify` and `cancel` take the lock of the state for a
short while: what runs under it has no await, so it is one step, at one time of the clock. The lock
is first come, first served. Between two such steps `start` waits for `begin` and `verify` for
`complete`; both are requests to EZVIZ. A call may be dropped wherever it waits.

What the provider keeps of an enrolment is the number of the call of `start` that has begun it, and
`parseStr` is `Uuid::parse_str`. `completions` is not in the program: it records the calls of
`complete`.
-/

namespace EzvizBridge

namespace Enrollment

open Alarms (isWhitespace)

/-- `Uuid`. -/
abbrev Uuid := BitVec 128

/-- `ENROLLMENT_TTL`, in nanoseconds. -/
def enrollmentTtl : ℕ := 120 * 1000000000

/-- `START_COOLDOWN`, in nanoseconds. -/
def startCooldown : ℕ := 10 * 1000000000

/-- `EnrollmentStart`. -/
structure EnrollmentStart where
  account : String
  password : String
  apiRegion : String := "eu"
  deriving DecidableEq

/-- `validate_start`. -/
def validateStart (input : EnrollmentStart) : Except BridgeError Unit :=
  if input.account.toList.all isWhitespace ∨ input.password.utf8ByteSize < 4 ∨
      input.apiRegion.toList.all isWhitespace ∨ input.apiRegion.utf8ByteSize > 128 then
    .error .invalidCredentials
  else .ok ()

/-- `EnrollmentState`, without what the provider keeps. -/
inductive EnrollmentState
  | complete
  | mfa
  deriving DecidableEq

/-- `Pending`. -/
structure Pending where
  id : Uuid
  provider : ℕ
  expiresAt : ℕ
  deriving DecidableEq

/-- What a call returns. -/
inductive Response
  /-- `EnrollmentStarted`. -/
  | started (enrollmentId : Uuid) (nextStep : String) (expiresIn : ℕ)
  /-- `EnrollmentVerified`. -/
  | verified
  | cancelled
  deriving DecidableEq

/-- `State` of the source, and the value of `ready`. -/
structure Manager where
  pending : Option Pending := none
  lastStart : Option ℕ := none
  inFlight : Bool := false
  ready : Bool := false
  deriving DecidableEq

namespace Manager

variable (self : Manager)

def expire (now : ℕ) : Manager :=
  if self.pending.any fun pending => pending.expiresAt ≤ now then { self with pending := none }
  else self

/-- `start`, up to the request. -/
def takeSlot (now : ℕ) : Outcome Manager Unit :=
  let state := self.expire now
  if state.pending.isSome ∨ state.inFlight then (.error .enrollmentBusy, state)
  else if state.lastStart.any fun last => now < last + startCooldown then
    (.error .enrollmentBusy, state)
  else (.ok (), { state with lastStart := some now, inFlight := true })

/-- `start`, after the request. -/
def record (now : ℕ) (id : Uuid) (provider : ℕ) (outcome : Except BridgeError EnrollmentState) :
    Outcome Manager Response :=
  let state := { self with inFlight := false }
  match outcome with
  | .ok .complete => (.ok (.started id "complete" 0), { state with ready := true })
  | .ok .mfa =>
    (.ok (.started id "otp" 120),
      { state with pending := some ⟨id, provider, now + enrollmentTtl⟩ })
  | .error error => (.error error, state)

/-- `verify`, up to the request. -/
def take (now : ℕ) (id : Uuid) : Outcome Manager Pending :=
  let state := self.expire now
  match state.pending with
  | some pending =>
    if pending.id = id then (.ok pending, { state with pending := none })
    else (.error .enrollmentExpired, state)
  | none => (.error .enrollmentExpired, state)

/-- `verify`, after the request. -/
def verified (outcome : Except BridgeError Unit) : Outcome Manager Response :=
  match outcome with
  | .ok _ => (.ok .verified, { self with ready := true })
  | .error error => (.error error, self)

def cancel (id : Uuid) : Manager :=
  if self.pending.any fun pending => pending.id = id then { self with pending := none } else self

end Manager

/-! ### Calls -/

/-- A call of the manager. The code of a `verify` goes to the provider as it is. -/
inductive Request
  | start (input : EnrollmentStart)
  | verify (enrollmentId : String)
  | cancel (enrollmentId : String)

/-- How far a call is. -/
inductive Phase
  /-- `start` waits for the lock. -/
  | starting
  /-- `start` waits for `begin`. -/
  | requesting (id : Uuid)
  /-- `begin` has returned, and `start` waits for the lock again. -/
  | returned (id : Uuid) (outcome : Except BridgeError EnrollmentState)
  /-- `verify` waits for the lock. -/
  | verifying (id : Uuid)
  /-- `verify` waits for `complete`. -/
  | completing (pending : Pending)
  /-- `cancel` waits for the lock. -/
  | cancelling (id : Uuid)
  | ended (at_ : ℕ) (result : Except BridgeError Response)
  | dropped (at_ : ℕ)
  deriving DecidableEq

/-- A call, and when it was made. -/
structure Call where
  madeAt : ℕ
  phase : Phase
  deriving DecidableEq

/-- A call of `complete`: the enrolment, and the identifier that the `verify` carries. -/
structure Completion where
  pending : Pending
  id : Uuid
  at_ : ℕ
  deriving DecidableEq

/-- The manager, the clock, the calls, and those that wait for the lock. -/
structure State where
  manager : Manager := {}
  clock : ℕ := 0
  calls : List Call := []
  queue : List ℕ := []
  completions : List Completion := []
  deriving DecidableEq

/-- What can happen. -/
inductive Event
  | tick (duration : ℕ)
  | call (request : Request)
  /-- The first call that waits gets the lock. `id` is what `Uuid::new_v4` returns to a `start`. -/
  | enter (id : Uuid)
  /-- `begin` returns. -/
  | outcome (i : ℕ) (outcome : Except BridgeError EnrollmentState)
  /-- `complete` returns. -/
  | completed (i : ℕ) (outcome : Except BridgeError Unit)
  /-- The client has gone. -/
  | drop (i : ℕ)

/-- The first phase of a call. -/
def Request.begin (parseStr : String → Option Uuid) (now : ℕ) : Request → Phase
  | .start input =>
    match validateStart input with
    | .ok _ => .starting
    | .error error => .ended now (.error error)
  | .verify enrollmentId =>
    match parseStr enrollmentId with
    | some id => .verifying id
    | none => .ended now (.error .enrollmentExpired)
  | .cancel enrollmentId =>
    match parseStr enrollmentId with
    | some id => .cancelling id
    | none => .ended now (.ok .cancelled)

/-- The call waits for the lock. -/
def Phase.waits : Phase → Bool
  | .starting | .returned _ _ | .verifying _ | .cancelling _ => true
  | _ => false

def Phase.over : Phase → Bool
  | .ended _ _ | .dropped _ => true
  | _ => false

namespace State

variable (s : State)

def setPhase (i : ℕ) (call : Call) (phase : Phase) : State :=
  { s with calls := s.calls.set i { call with phase } }

/-- The call `i` has the lock. -/
def enter (i : ℕ) (call : Call) (id : Uuid) : Option State :=
  match call.phase with
  -- `start` takes the slot, and asks without the lock
  | .starting =>
    match s.manager.takeSlot s.clock with
    | (.ok _, manager) => some ({ s with manager }.setPhase i call (.requesting id))
    | (.error error, manager) =>
      some ({ s with manager }.setPhase i call (.ended s.clock (.error error)))
  | .returned id outcome =>
    let (result, manager) := s.manager.record s.clock id i outcome
    some ({ s with manager }.setPhase i call (.ended s.clock result))
  -- `verify` takes the pending enrollment out
  | .verifying id =>
    match s.manager.take s.clock id with
    | (.ok pending, manager) =>
      let completions := s.completions ++ [{ pending, id, at_ := s.clock }]
      some ({ s with manager, completions }.setPhase i call (.completing pending))
    | (.error error, manager) =>
      some ({ s with manager }.setPhase i call (.ended s.clock (.error error)))
  | .cancelling id =>
    some ({ s with manager := s.manager.cancel id }.setPhase i call
      (.ended s.clock (.ok .cancelled)))
  | _ => none

end State

section

variable (parseStr : String → Option Uuid)

/-- One step. -/
def step (s : State) : Event → Option State
  | .tick duration => some { s with clock := s.clock + duration }
  | .call request =>
    let phase := request.begin parseStr s.clock
    some
      { s with
        calls := s.calls ++ [⟨s.clock, phase⟩]
        queue := if phase.waits then s.queue ++ [s.calls.length] else s.queue }
  | .enter id =>
    match s.queue with
    | [] => none
    | i :: queue =>
      match s.calls[i]? with
      | some call => { s with queue }.enter i call id
      | none => none
  | .outcome i outcome =>
    match s.calls[i]? with
    | some ⟨madeAt, .requesting id⟩ =>
      some
        { s with
          calls := s.calls.set i ⟨madeAt, .returned id outcome⟩
          queue := s.queue ++ [i] }
    | _ => none
  | .completed i outcome =>
    match s.calls[i]? with
    | some ⟨madeAt, .completing _⟩ =>
      let (result, manager) := s.manager.verified outcome
      some { s with manager, calls := s.calls.set i ⟨madeAt, .ended s.clock result⟩ }
    | _ => none
  | .drop i =>
    match s.calls[i]? with
    | some call =>
      -- a future that is dropped leaves the queue
      if call.phase.over then none
      else some ({ s with queue := s.queue.erase i }.setPhase i call (.dropped s.clock))
    | none => none

end

end Enrollment

end EzvizBridge
