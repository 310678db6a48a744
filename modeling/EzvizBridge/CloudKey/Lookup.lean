import EzvizBridge.CloudKey.Guard
import EzvizBridge.Session.Model

/-!
# The lookup and its session

`transport/cloud_key.rs`: a lookup goes through `authed`, so an expired session is refreshed once
and the request is sent once more. The guard then decides from the error alone whether EZVIZ has
seen the lookup. Here `authed` and `refresh` are read for one call on its own, on what EZVIZ and the
network answer.
-/

namespace EzvizBridge

namespace CloudKey

open Recordings (Persist)
open Session (EzvizToken Failure RefreshReply sessionExpired isSuccess requiredString recentFailure
  refreshedSession refreshedToken)

/-- An answer to a request for the code: its status, `meta.code`, whether `resultCode` is zero, and
`encryptkey`. -/
structure Answer where
  status : ℕ
  code : Option ℤ := none
  accepted : Bool := false
  encryptkey : Option String := none
  deriving DecidableEq

/-- What comes back for a request: an answer, or an error of the network or of the body. -/
abbrev Reply := Except BridgeError Answer

/-- What a `refresh` for generation `seen` finds, and what EZVIZ answers if it is asked. -/
structure RefreshCase where
  seen : ℕ
  generation : ℕ
  failure : Option Failure
  now : ℕ
  token : EzvizToken
  answer : Except BridgeError RefreshReply

/-- `SessionStore::refresh`. -/
def RefreshCase.result (self : RefreshCase) : Except BridgeError Unit :=
  if self.generation ≠ self.seen then .ok ()
  else
    match recentFailure self.failure self.now self.seen with
    | some error => .error error
    | none =>
      match self.token.featureCode with
      | none => .error (.configuration "EZVIZ token has no feature code")
      | some _ =>
        match refreshedToken self.token self.answer with
        | .error error => .error error
        | .ok _ => .ok ()

/-- `EzvizTransport::authed`. -/
def authed (first : Reply) (refresh : RefreshCase) (second : Reply) : Reply :=
  match first with
  | .error error => .error error
  | .ok answer =>
    if ¬sessionExpired answer.status answer.code then .ok answer
    else
      match refresh.result with
      | .error error => .error error
      | .ok _ =>
        -- sent once more, with the refreshed session
        match second with
        | .error error => .error error
        | .ok answer =>
          if ¬sessionExpired answer.status answer.code then .ok answer
          else .error .sessionExpired

/-- The requests that `authed` sends get these replies. -/
def replies (first : Reply) (refresh : RefreshCase) (second : Reply) : List Reply :=
  match first with
  | .error _ => [first]
  | .ok answer =>
    if ¬sessionExpired answer.status answer.code then [first]
    else
      match refresh.result with
      | .error _ => [first]
      | .ok _ => [first, second]

/-- `request_camera_key`. -/
def requestCameraKey (first : Reply) (refresh : RefreshCase) (second : Reply) :
    Except BridgeError String :=
  match authed first refresh second with
  | .error error => .error error
  | .ok answer =>
    if ¬isSuccess answer.status ∨ ¬answer.accepted then
      .error (.upstream "camera verification code request was refused")
    else requiredString answer.encryptkey "encryptkey"

section

variable (keyId : String → String) (isConnect : String → Bool)

def cameraKey (guard : Guard) (serial : String) (now : ℤ) (first : Reply) (refresh : RefreshCase)
    (second : Reply) (persist persist' : Persist) : Except BridgeError String × Guard :=
  guard.fetch keyId isConnect serial now (requestCameraKey first refresh second) persist persist'

/-- The refresh finds another generation, or EZVIZ has refused it for good, now or not long ago, or
there was no connection, or it succeeds. -/
def RefreshCase.Settled (self : RefreshCase) : Prop :=
  self.generation ≠ self.seen ∨
    match recentFailure self.failure self.now self.seen with
    | some error => error = .reauthRequired
    | none =>
      self.token.featureCode.isSome ∧
        match self.answer with
        | .error error => neverProcessed isConnect error
        | .ok reply =>
          match refreshedSession reply with
          | .ok session => session.1.isSome ∧ session.2.isSome
          | .error error => error = .reauthRequired

variable {keyId : String → String} {isConnect : String → Bool}

/-! ### The error of the request -/

end

def sampleLookup (refresh : RefreshCase) : Except BridgeError String × Guard :=
  cameraKey id (fun _ => false) {} "C12345678" 0 (.ok ⟨401, none, false, none⟩) refresh
    (.ok ⟨401, none, false, none⟩) .ok .ok

end CloudKey

end EzvizBridge
