import EzvizBridge.Basic
import EzvizBridge.Lib.EventSystem

/-!
# The cache cell of the controls

`controls/cell.rs`, as an event system. `TtlCell::get` takes the lock of the entry and keeps it
while it fetches; what it does between two awaits is one step. It waits for the lock, for the fetch,
and for the metrics, which count failures and stale reads. `TtlCell::invalidate` takes the lock to
clear the entry, and then it clears the last good value, which has a lock of its own. A call may be
cancelled wherever it waits, and a get that is cancelled lets go of the lock.

The fetch is code of the caller: it returns what it likes, when it likes. A value carries the number
of the fetch that has obtained it, and `steps`, `fetches` and the stamps are not in the program:
they record what has happened.
-/

namespace EzvizBridge

/-- `BridgeError::diagnostic_code`. -/
def BridgeError.diagnosticCode : BridgeError → String
  | .configuration _ => "configuration"
  | .keyRejected => "key_rejected"
  | .reauthRequired => "reauth_required"
  | .sessionExpired => "session_expired"
  | .timeout => "timeout"
  | .invalidCredentials => "invalid_credentials"
  | .invalidOtp => "invalid_otp"
  | .enrollmentBusy => "enrollment_busy"
  | .enrollmentExpired => "enrollment_expired"
  | .cameraNotFound => "camera_not_found"
  | .cameraOffline => "camera_offline"
  | .sdNoRecording => "sd_no_recording"
  | .unsupportedMedia => "unsupported_media"
  | .capacity _ => "capacity"
  | .recording _ => "recording"
  | .recordingActive => "recording_active"
  | .upstream _ => "upstream"
  | .upstreamUnavailable => "upstream_unavailable"
  | .io _ => "io"
  | .http _ => "http"
  | .json _ => "json"
  | .task _ => "task"

namespace Controls

/-! ### The cell -/

/-- A value, and the number of the fetch that has obtained it. -/
structure Stamped (α : Type) where
  value : α
  fetch : ℕ
  deriving DecidableEq

/-- `Entry`. -/
structure Entry (α : Type) where
  expires : ℕ
  /-- `Err` records a recent failure and its diagnostic category. -/
  value : Except String (Stamped α)
  deriving DecidableEq

/-- `Good`. -/
structure Good (α : Type) where
  value : Stamped α
  at_ : ℕ
  deriving DecidableEq

/-- `Cached`. -/
inductive Cached (α : Type)
  | value (value : Stamped α)
  | stale (value : Stamped α)
  | failed (category : String)
  deriving DecidableEq

/-- The durations of a cell. -/
structure Lifetimes where
  ttl : ℕ
  failureTtl : ℕ
  staleFor : ℕ

/-- `TtlCell`, without its name, its durations and the metrics. -/
structure TtlCell (α : Type) where
  entry : Option (Entry α) := none
  good : Option (Good α) := none
  deriving DecidableEq

/-- What `get` does when it has the lock. -/
inductive Look (α : Type)
  | value (value : Stamped α)
  /-- A recent failure. -/
  | failure (category : String)
  /-- The deadline has passed. -/
  | late
  | fetch

namespace TtlCell

variable {α : Type} (self : TtlCell α) (lifetimes : Lifetimes)

/-- `TtlCell::get` with the lock, up to the fetch. -/
def look (force : Bool) (deadline now : ℕ) : Look α :=
  match self.entry.filter fun entry => !force && decide (now < entry.expires) with
  | some ⟨_, .ok value⟩ => .value value
  | some ⟨_, .error category⟩ => .failure category
  | none => if deadline ≤ now then .late else .fetch

/-- `TtlCell::fallback`. -/
def fallback (force : Bool) (category : String) (now : ℕ) : Cached α :=
  let usable := !force && category ≠ "reauth_required"
  match self.good.filter fun good => usable && decide (now - good.at_ ≤ lifetimes.staleFor) with
  | some good => .stale good.value
  | none => .failed category

/-- A fetch has succeeded. -/
def succeed (lifetimes : Lifetimes) (value : Stamped α) (now : ℕ) : TtlCell α where
  entry := some ⟨now + lifetimes.ttl, .ok value⟩
  good := some ⟨value, now⟩

/-- A fetch has failed. -/
def fail (category : String) (now : ℕ) : TtlCell α :=
  { self with entry := some ⟨now + lifetimes.failureTtl, .error category⟩ }

end TtlCell

/-! ### Calls -/

/-- When something happens: the number of the step, and the time. -/
structure Stamp where
  step : ℕ
  clock : ℕ
  deriving DecidableEq

/-- What is called. -/
inductive Method
  | get (force : Bool) (deadline : ℕ)
  | invalidate
  deriving DecidableEq

/-- How far a call is. -/
inductive Phase (α : Type)
  /-- Waits for the lock. -/
  | waiting
  /-- `get` has the lock and waits for the fetch with this number. -/
  | fetching (fetch : ℕ)
  /-- The fetch has failed; `get` has the lock, and waits for the metrics. -/
  | recording (category : String)
  /-- `fallback` has settled on a stale value, and waits for the metrics. -/
  | leaving (settled : Stamp) (value : Stamped α)
  /-- `get` has returned what it had settled on. -/
  | returned (settled at_ : Stamp) (result : Cached α)
  /-- `invalidate` has cleared the entry. -/
  | clearing (since : Stamp)
  /-- `invalidate` has returned. -/
  | cleared (since at_ : Stamp)
  | cancelled
  deriving DecidableEq

/-- The call is at an await. -/
def Phase.waits {α : Type} : Phase α → Bool
  | .waiting | .fetching _ | .recording _ | .leaving _ _ => true
  | _ => false

/-- A call, and when it was made. -/
structure Call (α : Type) where
  method : Method
  started : Stamp
  phase : Phase α := .waiting
  deriving DecidableEq

/-- A fetch: the call it belongs to, when it began, and when it succeeded with which value. -/
structure Fetch (α : Type) where
  call : ℕ
  began : Stamp
  succeeded : Option Stamp := none
  value : Option α := none
  deriving DecidableEq

/-- A cell, its callers and the clock. -/
structure State (α : Type) where
  cell : TtlCell α := {}
  clock : ℕ := 0
  steps : ℕ := 0
  /-- The call that has the lock of the entry. -/
  holder : Option ℕ := none
  calls : List (Call α) := []
  fetches : List (Fetch α) := []
  deriving DecidableEq

/-- What can happen. -/
inductive Event (α : Type)
  | tick (duration : ℕ)
  | call (method : Method)
  /-- A call gets the lock of the entry. -/
  | lock (i : ℕ)
  /-- The deadline of a get has passed, and it still waits for the lock. -/
  | timeout (i : ℕ)
  /-- The fetch of a get ends; at the deadline it ends with `BridgeError::Timeout`. -/
  | fetched (i : ℕ) (result : Except BridgeError α)
  /-- The metrics have counted. -/
  | counted (i : ℕ)
  /-- `invalidate` clears the last good value. -/
  | clear (i : ℕ)
  | cancel (i : ℕ)

namespace State

variable {α : Type} (s : State α)

/-- The stamp of the step that is taken now. -/
def now : Stamp := ⟨s.steps, s.clock⟩

def setPhase (i : ℕ) (call : Call α) (phase : Phase α) : State α :=
  { s with calls := s.calls.set i { call with phase } }

/-- The call lets go of the lock, if it has it. -/
def release (i : ℕ) : State α := { s with holder := if s.holder = some i then none else s.holder }

/-- `fallback` of the call `i`: only a stale value is counted by the metrics. -/
def fall (lifetimes : Lifetimes) (i : ℕ) (call : Call α) (force : Bool)
    (category : String) : State α :=
  match s.cell.fallback lifetimes force category s.clock with
  | .stale value => s.setPhase i call (.leaving s.now value)
  | result => (s.release i).setPhase i call (.returned s.now s.now result)

/-- The call has the lock. -/
def enter (lifetimes : Lifetimes) (i : ℕ) (call : Call α) : State α :=
  match call.method with
  | .invalidate =>
    { s with cell := { s.cell with entry := none } }.setPhase i call (.clearing s.now)
  | .get force deadline =>
    match s.cell.look force deadline s.clock with
    | .value value => s.setPhase i call (.returned s.now s.now (.value value))
    -- the guard of the entry lives until `fallback` has returned
    | .failure category => { s with holder := some i }.fall lifetimes i call force category
    | .late => s.fall lifetimes i call force "timeout"
    | .fetch =>
      let fetch : Fetch α := { call := i, began := s.now }
      { s with holder := some i, fetches := s.fetches ++ [fetch] }.setPhase i call
        (.fetching s.fetches.length)

/-- The fetch with the number `fetch` has ended. -/
def settle (lifetimes : Lifetimes) (i : ℕ) (call : Call α) (fetch : ℕ)
    (result : Except BridgeError α) : State α :=
  match result with
  | .ok value =>
    { s with
      cell := .succeed lifetimes ⟨value, fetch⟩ s.clock
      holder := none
      fetches := s.fetches.modify fetch fun fetch =>
        { fetch with succeeded := some s.now, value := some value } }.setPhase i call
          (.returned s.now s.now (.value ⟨value, fetch⟩))
  | .error error => s.setPhase i call (.recording error.diagnosticCode)

end State

section

variable {α : Type} (lifetimes : Lifetimes)

/-- What an event does; `steps` is counted by `step`. -/
def act (s : State α) : Event α → Option (State α)
  | .tick duration => some { s with clock := s.clock + duration }
  | .call method => some { s with calls := s.calls ++ [{ method, started := s.now }] }
  | .lock i =>
    match s.calls[i]? with
    | some ⟨method, started, .waiting⟩ =>
      if s.holder = none then some (s.enter lifetimes i ⟨method, started, .waiting⟩) else none
    | _ => none
  | .timeout i =>
    match s.calls[i]? with
    | some ⟨.get force deadline, started, .waiting⟩ =>
      -- `timeout_at` around the lock, which only a get has
      if deadline ≤ s.clock then
        some (s.fall lifetimes i ⟨.get force deadline, started, .waiting⟩ force "timeout")
      else none
    | _ => none
  | .fetched i result =>
    match s.calls[i]? with
    | some ⟨method, started, .fetching fetch⟩ =>
      some (s.settle lifetimes i ⟨method, started, .fetching fetch⟩ fetch result)
    | _ => none
  | .counted i =>
    match s.calls[i]? with
    | some ⟨.get force deadline, started, .recording category⟩ =>
      some
        ({ s with cell := s.cell.fail lifetimes category s.clock, holder := none }.fall lifetimes i
          ⟨.get force deadline, started, .recording category⟩ force category)
    | some ⟨method, started, .leaving settled value⟩ =>
      some
        ((s.release i).setPhase i ⟨method, started, .leaving settled value⟩
          (.returned settled s.now (.stale value)))
    | _ => none
  | .clear i =>
    match s.calls[i]? with
    | some ⟨method, started, .clearing since⟩ =>
      some
        ({ s with cell := { s.cell with good := none } }.setPhase i
          ⟨method, started, .clearing since⟩ (.cleared since s.now))
    | _ => none
  | .cancel i =>
    match s.calls[i]? with
    | some call =>
      -- a future that is dropped releases its guard
      if call.phase.waits then some ((s.release i).setPhase i call .cancelled) else none
    | none => none

def step (s : State α) (event : Event α) : Option (State α) :=
  (act lifetimes s event).map fun s' => { s' with steps := s.steps + 1 }

end

end Controls

end EzvizBridge
