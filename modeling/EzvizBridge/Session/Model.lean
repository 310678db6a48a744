import EzvizBridge.Alarms.Model
import EzvizBridge.Lib.EventSystem
import Mathlib.Data.Finset.Insert

/-!
# The session store

`transport/session.rs`, and `EzvizTransport::authed` of `transport/authed.rs`, as an event system.
`refresh`, `update` and `adopt` take the lock of the store; what runs under it is a task: the
detached task of a refresh, or the caller of `update` and `adopt` itself. A task moves from one
`Stage` to the next, a call of `authed`, `refresh` or `current` from one `Phase` to the next, and
between two events anything else may happen. A call may be cancelled wherever it waits; a task goes
on without it.

The slot with the token in memory is behind a lock of its own, with a writer and readers: a task
writes the slot and then the generation while it is the writer, and `current` reads the slot and
then the generation while it is a reader.

EZVIZ accepts a refresh token once, and answers with a pair that it has never issued before. A token
file that is staged for `adopt` comes from an enrolment, so its pair is new as well. The generation
is a counter of 64 bits in the source.

`log`, `installs`, `reads` and `unsaved` are not in the program: they record what has happened.
-/

namespace EzvizBridge

namespace Session

open Alarms (isWhitespace)

/-! ### The token -/

/-- `EzvizToken`. A JSON value is its text. -/
structure EzvizToken where
  sessionId : String
  rfSessionId : String
  apiUrl : String
  username : Option String := none
  featureCode : Option String := none
  serviceUrls : Option String := none
  extra : List (String × String) := []
  deriving DecidableEq, Repr

namespace EzvizToken

/-- The session identifiers. -/
def ids (self : EzvizToken) : String × String := (self.sessionId, self.rfSessionId)

/-- `EzvizToken::validate`. -/
def validate (self : EzvizToken) : Except BridgeError Unit :=
  if self.sessionId.utf8ByteSize < 20 ∨ self.rfSessionId.utf8ByteSize < 20 ∨
      self.apiUrl.toList.all isWhitespace then
    .error (.configuration "EZVIZ token file is incomplete")
  else .ok ()

end EzvizToken

/-- `read_token`, on what is at the path. A file that is not private, too short or no JSON is not
told from one that is not there: all of them are configuration errors, of which only this text is
modelled. -/
def readToken (name : String) : Option EzvizToken → Except BridgeError EzvizToken
  | none => .error (.configuration ("secret file is unavailable: " ++ name))
  | some token => token.validate.map fun _ => token

theorem readToken_ok {name : String} {file : Option EzvizToken} {token : EzvizToken}
    (h : readToken name file = .ok token) : file = some token := by
  cases file with
  | none => exact nomatch h
  | some found =>
    rw [readToken] at h
    cases hv : found.validate with
    | error error =>
      rw [hv] at h
      exact nomatch h
    | ok _ =>
      rw [hv] at h
      exact congrArg some (Except.ok.inj h)

/-- A change that `update` stores: it leaves the session identifiers alone. -/
structure Change where
  apply : EzvizToken → EzvizToken
  keeps : ∀ token, (apply token).ids = token.ids

/-- The change of `ensure_service_urls`. -/
def Change.setServiceUrls (serviceUrls : String) : Change where
  apply token := { token with serviceUrls := some serviceUrls }
  keeps _ := rfl

/-! ### Answers of EZVIZ -/

def isSuccess (status : ℕ) : Bool := 200 ≤ status ∧ status < 300

def isServerError (status : ℕ) : Bool := 500 ≤ status ∧ status < 600

/-- `SESSION_EXPIRED`. -/
def expiredCode : ℤ := 99997

/-- `session_expired`, on the status and on `meta.code`. -/
def sessionExpired (status : ℕ) (code : Option ℤ) : Bool :=
  status = 401 ∨ code = some expiredCode

/-- What a refresh gets from EZVIZ: the status, `meta.code`, and the two identifiers of
`sessionInfo`. -/
structure RefreshReply where
  status : ℕ
  code : Option ℤ
  sessionInfo : Option (Option String × Option String)
  deriving DecidableEq

/-- `required_string`. -/
def requiredString (value : Option String) (key : String) : Except BridgeError String :=
  match value with
  | some text => .ok text
  | none => .error (.upstream ("EZVIZ response omitted " ++ key))

/-- `refreshed_session`. -/
def refreshedSession (reply : RefreshReply) : Except BridgeError (Option String × Option String) :=
  if isSuccess reply.status ∧ reply.code = some 200 then
    match reply.sessionInfo with
    | some session => .ok session
    | none => .error (.upstream "refresh response omitted sessionInfo")
  else
    let serverSide : Bool :=
      match reply.code with
      | none => true
      | some code => 500 ≤ code ∧ code < 600
    let transient : Bool := isServerError reply.status || reply.status = 429 || serverSide
    if reply.status = 401 ∨ reply.status = 403 ∨ ¬transient then .error .reauthRequired
    else .error (.upstream ("EZVIZ session refresh returned HTTP " ++ toString reply.status))

/-- The end of `rotate`: the token with the identifiers of the answer. A request or a body that
fails is an error from the start. -/
def refreshedToken (current : EzvizToken) (answer : Except BridgeError RefreshReply) :
    Except BridgeError EzvizToken := do
  let session ← refreshedSession (← answer)
  let sessionId ← requiredString session.1 "sessionId"
  let rfSessionId ← requiredString session.2 "refreshSessionId"
  return { current with sessionId, rfSessionId }

/-! ### Failures -/

/-- `TRANSIENT_COOLDOWN`, in milliseconds. -/
def transientCooldown : ℕ := 10 * 1000

/-- `REJECTED_COOLDOWN`, in milliseconds. -/
def rejectedCooldown : ℕ := 30 * 60 * 1000

/-- `Failure`. -/
structure Failure where
  generation : ℕ
  since : ℕ
  rejected : Bool
  deriving DecidableEq

/-- `recent_failure`, at the time `now`. -/
def recentFailure (failure : Option Failure) (now generation : ℕ) : Option BridgeError :=
  match failure with
  | none => none
  | some failure =>
    if failure.generation ≠ generation then none
    else if failure.rejected then
      if now - failure.since < rejectedCooldown then some .reauthRequired else none
    else if now - failure.since < transientCooldown then
      some (.upstream "EZVIZ session refresh failed moments ago")
    else none

/-! ### Tasks and calls -/

/-- What a task does under the lock. -/
inductive Work
  /-- The detached task of a `refresh` that was called with `seen`. -/
  | rotate (seen : ℕ)
  | update (change : Change)
  | adopt (staged : String)

/-- `record` after a `rotate`, and what `adopt` does with the failure. -/
def Work.record (failure : Option Failure) (now : ℕ) (result : Except BridgeError Unit) :
    Work → Option Failure
  | .rotate seen =>
    match result with
    | .ok _ => none
    | .error error => some ⟨seen, now, error = .reauthRequired⟩
  | .adopt _ =>
    match result with
    | .ok _ => none
    | .error _ => failure
  | .update _ => failure

/-- The argument `rotated` of `publish`; `adopt` counts as well. -/
def Work.renews : Work → Bool
  | .rotate _ | .adopt _ => true
  | .update _ => false

/-- How far a task is. -/
inductive Stage
  /-- Waits for the lock. -/
  | waiting
  /-- Has the lock. -/
  | holding
  /-- `rotate` has read the token. -/
  | requesting (current : EzvizToken)
  /-- `rotate` has sent the refresh token. -/
  | sent (current : EzvizToken)
  /-- `publish` is about to write the file. -/
  | publishing (token : EzvizToken)
  /-- The file is written; waits for the slot. -/
  | storing (token : EzvizToken)
  /-- The slot is written, and still locked. -/
  | swapped
  /-- Still has the lock, for the last time. -/
  | finished (result : Except BridgeError Unit)
  | ended (result : Except BridgeError Unit)
  deriving DecidableEq

/-- The task has the lock. -/
def Stage.Holds : Stage → Prop
  | .waiting | .ended _ => False
  | _ => True

/-- A task. -/
structure Task where
  work : Work
  stage : Stage

/-- What a call is for. -/
inductive CallKind
  | authed
  | refresh (seen : ℕ)
  | current
  deriving DecidableEq

/-- How far a call is; `attempt` is the counter of the loop of `authed`. -/
inductive Phase
  /-- In front of `current`. -/
  | ready (attempt : ℕ)
  /-- In `current`, with the slot locked for reading. -/
  | reading (attempt : ℕ) (token : EzvizToken)
  /-- `authed` has sent its request. -/
  | requesting (attempt seen : ℕ)
  /-- `refresh` waits for the lock. -/
  | locking (seen : ℕ)
  /-- `refresh` waits for its task. -/
  | joined (seen task : ℕ)
  /-- Returned, or cancelled. -/
  | done (result : Option (Except BridgeError Unit))
  deriving DecidableEq

/-- A call, with the requests that it has sent: the token of each, and its generation. -/
structure Call where
  kind : CallKind
  phase : Phase
  requests : List (EzvizToken × ℕ) := []
  deriving DecidableEq

/-- The phase in which a call starts. -/
def CallKind.start : CallKind → Phase
  | .authed | .current => .ready 0
  | .refresh seen => .locking seen

/-- `refresh` returns: `authed` tries once more, unless there is an error. -/
def CallKind.resume (result : Except BridgeError Unit) : CallKind → Phase
  | .authed =>
    match result with
    | .ok _ => .ready 1
    | .error error => .done (some (.error error))
  | .refresh _ | .current => .done (some result)

/-! ### The state -/

/-- What is recorded of the refresh tokens, in the order in which it happens. -/
inductive Entry
  /-- A `rotate` for `seen` has sent `rfSessionId`, at `generation`. -/
  | sent (rfSessionId : String) (seen generation : ℕ)
  /-- EZVIZ has answered: `rfSessionId` is replaced by the new pair. -/
  | rotated (rfSessionId : String) (pair : String × String)
  /-- The token is written to memory or to the file. -/
  | stored (token : EzvizToken)
  deriving DecidableEq

/-- The contents of the store and of its file, with the token files of enrolments. -/
structure Store where
  token : EzvizToken
  generation : ℕ := 0
  file : EzvizToken
  staged : String → Option EzvizToken := fun _ => none
  /-- The refresh tokens that EZVIZ has issued. -/
  issued : Finset String := ∅
  log : List Entry := []
  /-- What was written to the slot, with the generation that it got. -/
  installs : List (EzvizToken × ℕ)
  /-- The last write to the file failed. -/
  unsaved : Bool := false

/-- The store, the tasks and calls on it, and EZVIZ. -/
structure State extends Store where
  lock : Option ℕ := none
  failure : Option Failure := none
  /-- Who has the slot locked for writing. -/
  writer : Option ℕ := none
  /-- Who has the slot locked for reading. -/
  readers : Finset ℕ := ∅
  tasks : ℕ → Option Task := fun _ => none
  calls : ℕ → Option Call := fun _ => none
  clock : ℕ := 0
  /-- The refresh tokens that EZVIZ does not accept any more. -/
  consumed : Finset String := ∅
  /-- What `current` has returned. -/
  reads : List (EzvizToken × ℕ) := []

/-- `SessionStore::load` on a token file; EZVIZ may have issued and taken back other tokens. -/
def State.load (token : EzvizToken) (consumed issued : Finset String) : State :=
  { token, file := token, consumed, issued := insert token.rfSessionId issued,
    installs := [(token, 0)] }

namespace State

variable (s : State)

/-- Task `id` moves to `stage`. -/
def put (id : ℕ) (work : Work) (stage : Stage) : State :=
  { s with tasks := Function.update s.tasks id (some ⟨work, stage⟩) }

/-- Call `id` is now `call`. -/
def setCall (id : ℕ) (call : Call) : State :=
  { s with calls := Function.update s.calls id (some call) }

/-! ### Steps of a task -/

/-- `update` or `adopt` is called. -/
def start (id : ℕ) (work : Work) : Option State :=
  match s.tasks id with
  | none => some (s.put id work .waiting)
  | some _ => none

/-- The lock is free. -/
def acquire (id : ℕ) : Option State :=
  match s.tasks id, s.lock with
  | some ⟨work, .waiting⟩, none => some { s.put id work .holding with lock := some id }
  | _, _ => none

/-- `rotate` and `update` read the token. -/
def readToken (id : ℕ) : Option State :=
  match s.tasks id, s.writer with
  | some ⟨.rotate seen, .holding⟩, none =>
    match s.token.featureCode with
    | some _ => some (s.put id (.rotate seen) (.requesting s.token))
    | none =>
      some (s.put id (.rotate seen)
        (.finished (.error (.configuration "EZVIZ token has no feature code"))))
  | some ⟨.update change, .holding⟩, none =>
    some (s.put id (.update change) (.publishing (change.apply s.token)))
  | _, _ => none

/-- `rotate` sends its request. -/
def send (id : ℕ) : Option State :=
  match s.tasks id with
  | some ⟨.rotate seen, .requesting current⟩ =>
    some
      { s.put id (.rotate seen) (.sent current) with
        log := s.log ++ [.sent current.rfSessionId seen s.generation] }
  | _ => none

/-- `rotate` gets an answer, or an error in its place. EZVIZ only answers with a new pair if it
still accepts the refresh token. -/
def answer (id : ℕ) (reply : Except BridgeError RefreshReply) : Option State :=
  match s.tasks id with
  | some ⟨.rotate seen, .sent current⟩ =>
    match refreshedToken current reply with
    | .error error => some (s.put id (.rotate seen) (.finished (.error error)))
    | .ok updated =>
      -- EZVIZ takes a refresh token once, and answers with a new pair
      if current.rfSessionId ∉ s.consumed ∧ updated.rfSessionId ∉ s.issued then
        some
          { s.put id (.rotate seen) (.publishing updated) with
            consumed := insert current.rfSessionId s.consumed
            issued := insert updated.rfSessionId s.issued
            log := s.log ++ [.rotated current.rfSessionId updated.ids] }
      else none
  | _ => none

/-- `adopt` reads the staged file and renames it, unless `renamed` is false. -/
def takeStaged (id : ℕ) (renamed : Bool) : Option State :=
  match s.tasks id with
  | some ⟨.adopt name, .holding⟩ =>
    match Session.readToken name (s.staged name) with
    | .error error => some (s.put id (.adopt name) (.finished (.error error)))
    | .ok token =>
      -- the staged file becomes the token file
      if renamed then
        some
          { s.put id (.adopt name) (.storing token) with
            file := token
            unsaved := false
            staged := Function.update s.staged name none
            log := s.log ++ [.stored token] }
      else some (s.put id (.adopt name) (.finished (.error (.io "rename"))))
  | _ => none

/-- `atomic_write_json`. It may fail before the file is replaced, or (the directory is not synced)
after that. -/
inductive Written
  | saved
  | failed (replaced : Bool)
  deriving DecidableEq

/-- `publish` writes the file. -/
def write (id : ℕ) (written : Written) : Option State :=
  match s.tasks id with
  | some ⟨work, .publishing token⟩ =>
    match written with
    | .saved =>
      some
        { s.put id work (.storing token) with
          file := token, unsaved := false, log := s.log ++ [.stored token] }
    -- the file was replaced, and only the sync has failed
    | .failed true =>
      some
        { s.put id work (.storing token) with
          file := token, unsaved := true, log := s.log ++ [.stored token] }
    | .failed false => some { s.put id work (.storing token) with unsaved := true }
  | _ => none

/-- The task locks the slot and writes it. -/
def swap (id : ℕ) : Option State :=
  match s.tasks id with
  | some ⟨work, .storing token⟩ =>
    if s.writer = none ∧ s.readers = ∅ then
      some
        { s.put id work .swapped with
          token := token, writer := some id, log := s.log ++ [.stored token] }
    else none
  | _ => none

/-- The task counts the generation up, if it has to, and unlocks the slot. -/
def bump (id : ℕ) : Option State :=
  match s.tasks id with
  | some ⟨work, .swapped⟩ =>
    let generation := if work.renews then s.generation + 1 else s.generation
    some
      { s.put id work (.finished (.ok ())) with
        generation := generation
        writer := none
        installs := s.installs ++ [(s.token, generation)] }
  | _ => none

/-- The task records its result and lets the lock go. -/
def release (id : ℕ) : Option State :=
  match s.tasks id with
  | some ⟨work, .finished result⟩ =>
    some
      { s.put id work (.ended result) with
        lock := none, failure := work.record s.failure s.clock result }
  | _ => none

/-! ### Steps of a call -/

/-- A call starts. -/
def call (id : ℕ) (kind : CallKind) : Option State :=
  match s.calls id with
  | none => some (s.setCall id ⟨kind, kind.start, []⟩)
  | some _ => none

/-- `current` locks the slot for reading. -/
def read (id : ℕ) : Option State :=
  match s.calls id, s.writer with
  | some ⟨kind, .ready attempt, requests⟩, none =>
    some
      { s.setCall id ⟨kind, .reading attempt s.token, requests⟩ with
        readers := insert id s.readers }
  | _, _ => none

/-- `current` reads the generation and returns, and `authed` sends its request. -/
def loadGeneration (id : ℕ) : Option State :=
  match s.calls id with
  | some ⟨kind, .reading attempt token, requests⟩ =>
    let after : Call :=
      match kind with
      | .authed => ⟨kind, .requesting attempt s.generation, requests ++ [(token, s.generation)]⟩
      | _ => ⟨kind, .done (some (.ok ())), requests⟩
    some
      { s.setCall id after with
        readers := s.readers.erase id
        reads := s.reads ++ [(token, s.generation)] }
  | _ => none

/-- The answer to a request of `authed`: its status and `meta.code`, or an error. -/
def reply (id : ℕ) (answer : Except BridgeError (ℕ × Option ℤ)) : Option State :=
  match s.calls id with
  | some ⟨kind, .requesting attempt seen, requests⟩ =>
    let phase : Phase :=
      match answer with
      | .error error => .done (some (.error error))
      | .ok (status, code) =>
        if ¬sessionExpired status code then .done (some (.ok ()))
        else if attempt = 0 then .locking seen
        else .done (some (.error .sessionExpired))
    some (s.setCall id ⟨kind, phase, requests⟩)
  | _ => none

/-- `refresh` has the lock. It gives it to a new task, or returns. -/
def enter (id task : ℕ) : Option State :=
  match s.calls id, s.lock, s.tasks task with
  | some ⟨kind, .locking seen, requests⟩, none, none =>
    if s.generation ≠ seen then some (s.setCall id ⟨kind, kind.resume (.ok ()), requests⟩)
    else
      match recentFailure s.failure s.clock seen with
      | some error => some (s.setCall id ⟨kind, kind.resume (.error error), requests⟩)
      | none =>
        some
          { (s.setCall id ⟨kind, .joined seen task, requests⟩).put task (.rotate seen) .holding with
            lock := some task }
  | _, _, _ => none

/-- The task of a `refresh` has ended. -/
def join (id : ℕ) : Option State :=
  match s.calls id with
  | some ⟨kind, .joined _ task, requests⟩ =>
    match s.tasks task with
    | some ⟨_, .ended result⟩ => some (s.setCall id ⟨kind, kind.resume result, requests⟩)
    | _ => none
  | _ => none

/-- The call is cancelled, wherever it is. -/
def cancel (id : ℕ) : Option State :=
  match s.calls id with
  | none | some ⟨_, .done _, _⟩ => none
  | some ⟨kind, _, requests⟩ =>
    some { s.setCall id ⟨kind, .done none, requests⟩ with readers := s.readers.erase id }

/-! ### Steps of the world -/

/-- An enrolment writes a token file. -/
def enrol (name : String) (token : EzvizToken) : Option State :=
  if token.rfSessionId ∉ s.issued then
    some
      { s with
        staged := Function.update s.staged name (some token)
        issued := insert token.rfSessionId s.issued }
  else none

end State

/-- What can happen. -/
inductive Event
  | update (task : ℕ) (change : Change)
  | adopt (task : ℕ) (name : String)
  | acquire (task : ℕ)
  | readToken (task : ℕ)
  | send (task : ℕ)
  | answer (task : ℕ) (reply : Except BridgeError RefreshReply)
  | takeStaged (task : ℕ) (renamed : Bool)
  | write (task : ℕ) (written : State.Written)
  | swap (task : ℕ)
  | bump (task : ℕ)
  | release (task : ℕ)
  | call (id : ℕ) (kind : CallKind)
  | read (id : ℕ)
  | loadGeneration (id : ℕ)
  | reply (id : ℕ) (answer : Except BridgeError (ℕ × Option ℤ))
  | enter (id task : ℕ)
  | join (id : ℕ)
  | cancel (id : ℕ)
  | enrol (name : String) (token : EzvizToken)
  /-- EZVIZ takes a refresh token back, or its answer gets lost. -/
  | consume (rfSessionId : String)
  | tick (duration : ℕ)

/-- One step. -/
def step (s : State) : Event → Option State
  | .update task change => s.start task (.update change)
  | .adopt task name => s.start task (.adopt name)
  | .acquire task => s.acquire task
  | .readToken task => s.readToken task
  | .send task => s.send task
  | .answer task reply => s.answer task reply
  | .takeStaged task renamed => s.takeStaged task renamed
  | .write task written => s.write task written
  | .swap task => s.swap task
  | .bump task => s.bump task
  | .release task => s.release task
  | .call id kind => s.call id kind
  | .read id => s.read id
  | .loadGeneration id => s.loadGeneration id
  | .reply id answer => s.reply id answer
  | .enter id task => s.enter id task
  | .join id => s.join id
  | .cancel id => s.cancel id
  | .enrol name token => s.enrol name token
  | .consume rfSessionId => some { s with consumed := insert rfSessionId s.consumed }
  | .tick duration => some { s with clock := s.clock + duration }

end Session

end EzvizBridge
