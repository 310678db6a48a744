import EzvizBridge.Controls.Freshness

/-!
# Updates of one control

`ControlService::update`, on one control: a register of the vendor, the cell through which it is
read, and any number of updates. The updates take the lock `writes` one after the other; each reads
the register through the cell by a forced get, writes, reads back, and may roll back. Other readers
use the cell whenever they like. A read of the vendor returns the value of the register at some
moment of the fetch (`sample`), and a write takes effect at some moment before it returns (`apply`).
Updates are not cancelled.

The sensitivity has a cell of its own, and a failed read of it hides the value instead of failing
the read of the controls (`hides`). `changes`, `since` and `until_` are not in the program: they
record what has become of the register.
-/

namespace EzvizBridge

namespace Controls

namespace Register

/-- What `update` needs to know of a control. -/
structure Control (V : Type) where
  lifetimes : Lifetimes
  /-- `READ_DEADLINE`. -/
  readDeadline : ℕ
  /-- Failed reads hide the value. -/
  hides : Bool
  /-- `vendor_write` accepts the value. -/
  inRange : V → Bool

/-- What an update answers. -/
inductive Reply (V : Type)
  | ok
  | unsupported
  | conflict (current : V)
  | invalid
  | unconfirmed
  /-- The read or the write has failed. -/
  | failed
  deriving DecidableEq

/-- How far an update is. A number of a call of the cell is the one the update waits for. -/
inductive Phase (V : Type)
  | waiting
  | reading (get : ℕ)
  /-- Waits for the write, before and after the register has taken it. -/
  | writing
  | written
  /-- Waits before the next read-back. -/
  | verifying (left : ℕ) (mismatch : Bool)
  | checking (get : ℕ) (left : ℕ) (mismatch : Bool)
  /-- Waits for the rollback, before and after the register has taken it. -/
  | undoing
  | undone
  | invalidating (call : ℕ) (reply : Reply V)
  | ended (reply : Reply V) (until_ : ℕ)
  deriving DecidableEq

/-- An update. -/
structure Update (V : Type) where
  expected : V
  desired : V
  since : ℕ
  phase : Phase V := .waiting
  deriving DecidableEq

/-- The register has taken a value of an update. -/
structure Change (V : Type) where
  author : ℕ
  value : V
  deriving DecidableEq

/-- The vendor and the service. -/
structure State (V : Type) where
  initial : V
  cell : Controls.State V := {}
  samples : ℕ → Option V := fun _ => none
  /-- The update that has the lock `writes`. -/
  writer : Option ℕ := none
  updates : List (Update V) := []
  changes : List (Change V) := []

/-- What can happen. -/
inductive Event (V : Type)
  | call (expected desired : V)
  | lock (i : ℕ)
  /-- The read of an update has returned. -/
  | observe (i : ℕ)
  /-- The read of the controls ends before it comes to the sensitivity: it fails, or there is
  none. -/
  | abstain (i : ℕ) (fails : Bool)
  /-- The register takes the write or the rollback of an update. -/
  | apply (i : ℕ)
  /-- The write or the rollback returns. -/
  | wrote (i : ℕ) (ok : Bool)
  /-- The delay before a read-back is over. -/
  | wake (i : ℕ)
  | invalidated (i : ℕ)
  /-- The vendor reads the register for the fetch of a get. -/
  | sample (get : ℕ)
  /-- The clock, the other readers, and what goes on in the cell. -/
  | cell (event : Controls.Event V)

/-- The call of the cell that an update waits for. -/
def Phase.call {V : Type} : Phase V → Option ℕ
  | .reading get | .checking get _ _ => some get
  | .invalidating call _ => some call
  | _ => none

namespace State

variable {V : Type} [DecidableEq V] (control : Control V) (s : State V)

/-- The value after the first `n` changes. -/
def valueAt (n : ℕ) : Option V :=
  match n with
  | 0 => some s.initial
  | n + 1 => s.changes[n]?.map Change.value

/-- The value of the register. -/
def register : V := (s.changes.getLast?.map Change.value).getD s.initial

/-- An update moves on. -/
def setPhase (i : ℕ) (update : Update V) (phase : Phase V) : State V :=
  { s with updates := s.updates.set i { update with phase } }

/-- The register takes a value of an update. -/
def take (i : ℕ) (value : V) (update : Update V) (phase : Phase V) : State V :=
  { s with
    changes := s.changes ++ [{ author := i, value }]
    updates := s.updates.set i { update with phase } }

/-- An update returns, and its guard is gone. -/
def finish (i : ℕ) (update : Update V) (reply : Reply V) : State V :=
  { s with writer := none }.setPhase i update (.ended reply s.changes.length)

/-- A call of the cell. -/
def ask (method : Method) (i : ℕ) (update : Update V) (phase : ℕ → Phase V) : Option (State V) :=
  (Controls.step control.lifetimes s.cell (.call method)).map fun cell =>
    { s with cell }.setPhase i update (phase s.cell.calls.length)

/-- A forced read of the register. -/
def read (i : ℕ) (update : Update V) (phase : ℕ → Phase V) : Option (State V) :=
  s.ask control (.get true (s.cell.clock + control.readDeadline)) i update phase

/-- `ControlService::invalidate`, as far as this cell goes. -/
def invalidate (i : ℕ) (update : Update V) (reply : Reply V) : Option (State V) :=
  s.ask control .invalidate i update (.invalidating · reply)

/-- The value that a read has returned: `none` if it has failed, `some none` if it hides the
value. -/
def reads (get : ℕ) : Option (Option (Option V)) :=
  match s.cell.calls[get]? with
  | some ⟨_, _, .returned _ _ (.value v)⟩ => some (some (some v.value))
  | some ⟨_, _, .returned _ _ (.stale v)⟩ => some (some (some v.value))
  | some ⟨_, _, .returned _ _ (.failed _)⟩ => some (if control.hides then some none else none)
  | _ => none

/-- `update` with what the read before the write has returned. -/
def decide (i : ℕ) (update : Update V) : Option (Option V) → Option (State V)
  | none => some (s.finish i update .failed)
  | some none => some (s.finish i update .unsupported)
  | some (some previous) =>
    if previous ≠ update.expected then some (s.finish i update (.conflict previous))
    else if previous = update.desired then some (s.finish i update .ok)
    else if ¬(control.inRange previous ∧ control.inRange update.desired) then
      some (s.finish i update .invalid)
    else some (s.setPhase i update .writing)

/-- `confirm` with what a read-back has returned. -/
def confirm (i : ℕ) (update : Update V) (left : ℕ) (mismatch : Bool) (read : Option (Option V)) :
    Option (State V) :=
  if read = some (some update.desired) then some (s.finish i update .ok)
  else
    let mismatch := mismatch || read.isSome
    if left = 0 then
      if mismatch then some (s.setPhase i update .undoing) else
        s.invalidate control i update .unconfirmed
    else some (s.setPhase i update (.verifying left mismatch))

end State

section

variable {V : Type} [DecidableEq V] (control : Control V)

/-- The events of the cell that may happen by themselves: the vendor returns what it has read, and
the calls of the updates are not cancelled. -/
def State.admits (s : State V) : Controls.Event V → Bool
  | .fetched get (.ok value) =>
    match s.cell.calls[get]? with
    | some ⟨_, _, .fetching fetch⟩ => s.samples fetch = some value
    | _ => false
  | .cancel call => s.updates.all fun update => update.phase.call ≠ some call
  | _ => true

/-- One step. -/
def step (s : State V) : Event V → Option (State V)
  | .call expected desired =>
    some { s with updates := s.updates ++ [{ expected, desired, since := s.changes.length }] }
  | .lock i =>
    match s.updates[i]?, s.writer with
    | some ⟨expected, desired, since, .waiting⟩, none =>
      { s with writer := some i }.read control i ⟨expected, desired, since, .waiting⟩ .reading
    | _, _ => none
  | .observe i =>
    match s.updates[i]? with
    | some ⟨expected, desired, since, .reading get⟩ =>
      (s.reads control get).bind (s.decide control i ⟨expected, desired, since, .reading get⟩)
    | some ⟨expected, desired, since, .checking get left mismatch⟩ =>
      (s.reads control get).bind
        (s.confirm control i ⟨expected, desired, since, .checking get left mismatch⟩ left mismatch)
    | _ => none
  | .abstain i fails =>
    if control.hides then
      match s.updates[i]? with
      | some ⟨expected, desired, since, .reading get⟩ =>
        s.decide control i ⟨expected, desired, since, .reading get⟩
          (if fails then none else some none)
      | some ⟨expected, desired, since, .checking get left mismatch⟩ =>
        s.confirm control i ⟨expected, desired, since, .checking get left mismatch⟩ left mismatch
          (if fails then none else some none)
      | _ => none
    else none
  | .apply i =>
    match s.updates[i]? with
    | some ⟨expected, desired, since, .writing⟩ =>
      some (s.take i desired ⟨expected, desired, since, .writing⟩ .written)
    | some ⟨expected, desired, since, .undoing⟩ =>
      some (s.take i expected ⟨expected, desired, since, .undoing⟩ .undone)
    | _ => none
  | .wrote i ok =>
    match s.updates[i]? with
    | some ⟨expected, desired, since, .written⟩ =>
      if ok then some (s.setPhase i ⟨expected, desired, since, .written⟩ (.verifying 3 false))
      else s.invalidate control i ⟨expected, desired, since, .written⟩ .failed
    | some ⟨expected, desired, since, .writing⟩ =>
      -- a write that has not taken effect has failed
      if ok then none else s.invalidate control i ⟨expected, desired, since, .writing⟩ .failed
    | some ⟨expected, desired, since, .undone⟩ =>
      s.invalidate control i ⟨expected, desired, since, .undone⟩ .unconfirmed
    | some ⟨expected, desired, since, .undoing⟩ =>
      if ok then none else s.invalidate control i ⟨expected, desired, since, .undoing⟩ .unconfirmed
    | _ => none
  | .wake i =>
    match s.updates[i]? with
    | some ⟨expected, desired, since, .verifying (left + 1) mismatch⟩ =>
      s.read control i ⟨expected, desired, since, .verifying (left + 1) mismatch⟩
        (.checking · left mismatch)
    | _ => none
  | .invalidated i =>
    match s.updates[i]? with
    | some ⟨expected, desired, since, .invalidating call reply⟩ =>
      match s.cell.calls[call]? with
      | some ⟨_, _, .cleared _ _⟩ =>
        some (s.finish i ⟨expected, desired, since, .invalidating call reply⟩ reply)
      | _ => none
    | _ => none
  | .sample get =>
    match s.cell.calls[get]? with
    | some ⟨_, _, .fetching fetch⟩ =>
      some { s with samples := Function.update s.samples fetch (some s.register) }
    | _ => none
  | .cell event =>
    if s.admits event then
      (Controls.step control.lifetimes s.cell event).map fun cell => { s with cell }
    else none

end

end Register

end Controls

end EzvizBridge
