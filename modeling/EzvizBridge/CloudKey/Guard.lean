import EzvizBridge.Recordings.Model
import EzvizBridge.Lib.EventSystem

/-!
# The guard of the verification code

`device/guard.rs`. EZVIZ may answer a lookup of the verification code of a camera by a message to
the owner, so there is one lookup in 24 hours, across all callers and restarts. `CloudKeyGuard`
keeps the times of the attempts, in memory and in a file, and the codes, in memory only.

What another crate does is a parameter: `keyId` is the digest of a serial, and `isConnect` is
`reqwest::Error::is_connect` on the text of the error. A guard without a file is left out.
-/

namespace EzvizBridge

namespace CloudKey

open Recordings (Persist)

def cloudKeyIntervalSeconds : ℤ := 24 * 3600

/-- `never_processed`. -/
def neverProcessed (isConnect : String → Bool) : BridgeError → Bool
  | .reauthRequired | .sessionExpired => true
  | .http error => isConnect error
  | _ => false

/-- `CloudKeyGuard`, with its file. -/
structure Guard where
  attempts : String → Option ℤ := fun _ => none
  codes : String → Option String := fun _ => none
  file : String → Option ℤ := fun _ => none

namespace Guard

def load (file : String → Option ℤ) : Guard := { attempts := file, file }

variable (keyId : String → String) (isConnect : String → Bool) (self : Guard)

def cached (serial : String) : Option String := self.codes (keyId serial)

/-- The new attempts are in memory, and in the file if that is written. -/
def store (attempts : String → Option ℤ) (persist : Persist) : Guard :=
  { self with attempts, file := if persist.published then attempts else self.file }

/-- `CloudKeyGuard::begin`. -/
def begin (serial : String) (now : ℤ) (persist : Persist) : Except BridgeError Unit × Guard :=
  let id := keyId serial
  if (self.attempts id).any fun attempt => now < attempt + cloudKeyIntervalSeconds then
    (.error (.upstream "cloud verification code lookup is paused for 24 hours"), self)
  else
    let inserted := Function.update self.attempts id (some now)
    let attempts key := (inserted key).filter fun attempt => now - attempt < cloudKeyIntervalSeconds
    (persist.result, self.store attempts persist)

def release (serial : String) (persist : Persist) : Guard :=
  self.store (Function.update self.attempts (keyId serial) none) persist

/-- The end of `CloudKeyGuard::fetch`, with what the request returned. -/
def finish (serial : String) (result : Except BridgeError String) (persist : Persist) : Guard :=
  match result with
  | .ok code => { self with codes := Function.update self.codes (keyId serial) (some code) }
  | .error error =>
    if neverProcessed isConnect error then self.release keyId serial persist else self

/-- `CloudKeyGuard::fetch`, on its own: `result` is what the request would return. -/
def fetch (serial : String) (now : ℤ) (result : Except BridgeError String)
    (persist persist' : Persist) : Except BridgeError String × Guard :=
  match self.cached keyId serial with
  | some code => (.ok code, self)
  | none =>
    match self.begin keyId serial now persist with
    | (.error error, guard) => (.error error, guard)
    | (.ok _, guard) => (result, guard.finish keyId isConnect serial result persist')

end Guard

end CloudKey

end EzvizBridge
