import EzvizBridge.Enrollment.Region
import EzvizBridge.Lib.Effects
import EzvizBridge.Session.Model

/-!
# Where the credentials go

`begin` and `complete` of `transport/enroll.rs`, with the requests of `transport/enroll_api.rs`, as
programs: they send requests and write the token, and the world answers what it likes. Redirects are
not followed by the client, so that a request goes to the host of its URL.

All of them send requests to EZVIZ hosts only, and a call of `login` makes at most three requests
with the password (`credentials_stay`). A program step is told by what it adds, and `login` by
induction over the redirects that are left.
-/

namespace EzvizBridge

namespace EnrollApi

open Controls (Value)
open Session (EzvizToken)
open Effects Effects.Program

/-! ### Requests -/

/-- `Method`. -/
inductive Method
  | get
  | post
  deriving DecidableEq

/-- A request of the client. -/
structure Request where
  method : Method
  url : String
  headers : List (String × String)
  form : List (String × String) := []
  deriving DecidableEq

/-- What the programs do. -/
inductive Event
  /-- `RequestBuilder::send`. -/
  | request (request : Request)
  /-- `atomic_write_json`. -/
  | store (path : String) (token : EzvizToken)
  deriving DecidableEq

/-- A response: its status, and what `read_json` makes of its body. -/
structure Response where
  status : ℕ
  body : Except BridgeError Value

/-- What happens, as a function of the effects so far, and the functions of other crates. -/
structure World where
  /-- `Client::builder`. -/
  build : Except BridgeError Unit
  /-- The answer to a request that has just been sent. -/
  answer : List Event → Except BridgeError Response
  /-- Whether the token has been written. -/
  stored : List Event → Except BridgeError Unit
  /-- `Md5::digest`, in hex. -/
  digest : String → String
  /-- `HeaderValue::from_str`. -/
  isHeader : String → Bool
  /-- A JSON value as its text. -/
  text : Value → String

/-- `LoginOutcome`. -/
inductive LoginOutcome
  | token (token : EzvizToken)
  | mfaRequired (region : String)

/-- `Attempt`. -/
inductive Attempt
  | done (outcome : LoginOutcome)
  | redirect (region : String)

/-- `PendingEnrollment`. -/
structure PendingEnrollment where
  account : String
  password : String
  region : String
  feature : String
  tokenPath : String

/-- `EnrollmentState`. -/
inductive EnrollmentState
  | complete
  | mfa (pending : PendingEnrollment)

def maxRegionRedirects : ℕ := 2

def loginError (mfa : Option String) : BridgeError :=
  if mfa.isSome then .invalidOtp else .invalidCredentials

/-- `required`. -/
def required (value : Value) (path : List String) : Except BridgeError String :=
  match (path.foldlM Value.get value).bind Value.asStr with
  | some text => .ok text
  | none => .error (.upstream "EZVIZ login response is incomplete")

/-- `meta.code`. -/
def metaCode (value : Value) : Option ℤ :=
  (value.get "meta").bind fun meta_ => (meta_.get "code").bind Value.asI64

def isSuccess (status : ℕ) : Bool := 200 ≤ status ∧ status < 300

def validateCode (code : String) : Except BridgeError Unit :=
  if code.utf8ByteSize = 6 ∧ code.toList.all Char.isDigit then .ok () else .error .invalidOtp

/-! ### Programs -/

/-- A part of an enrolment. -/
abbrev Enrolling (α : Type) := Fallible Event BridgeError α

variable (world : World)

/-- `mobile_headers`. -/
def mobileHeaders (featureCode : String) : List (String × String) :=
  [("featurecode", featureCode), ("clienttype", "3"), ("nettype", "WIFI"), ("customno", "1000001"),
    ("clientno", "web_site"), ("appid", "ys7"), ("language", "en_GB"), ("lang", "en"),
    ("user-agent", "okhttp/3.12.1")].filter fun header => world.isHeader header.2

/-- `RequestBuilder::send`. -/
def send (request : Request) : Enrolling Response := do
  (perform (.request request) : Program Event Unit)
  let log ← (history : Program Event _)
  liftExcept (world.answer log)

/-- `login_once`. -/
def loginOnce (account password region feature : String) (mfa : Option String) :
    Enrolling Attempt := do
  let response ← send world {
    method := .post
    url := "https://" ++ region ++ "/v3/users/login/v5"
    headers := mobileHeaders world feature
    form := [("account", account), ("password", world.digest password), ("featureCode", feature),
      ("msgType", if mfa.isSome then "3" else "0"),
      ("bizType", if mfa.isSome then "TERMINAL_BIND" else ""), ("cuName", "SGFzc2lv"),
      ("smsCode", mfa.getD "")] }
  if !isSuccess response.status then throw (loginError mfa)
  else
    let value ← liftExcept response.body
    -- logged in
    if metaCode value = some 200 then
      let sessionId ← liftExcept (required value ["loginSession", "sessionId"])
      let rfSessionId ← liftExcept (required value ["loginSession", "rfSessionId"])
      let username ← liftExcept (required value ["loginUser", "username"])
      let apiDomain ← liftExcept (required value ["loginArea", "apiDomain"])
      let apiUrl ← liftExcept (normalizeRegion apiDomain)
      return .done (.token {
        sessionId := sessionId
        rfSessionId := rfSessionId
        username := some username
        apiUrl := apiUrl
        featureCode := some feature })
    -- a code is asked for
    else if metaCode value = some 6002 then return .done (.mfaRequired region)
    -- another region has the account
    else if metaCode value = some 1100 then
      let next ← liftExcept (required value ["loginArea", "apiDomain"])
      return .redirect next
    else throw (loginError mfa)

/-- The loop of `login`, with the number of attempts that are left. -/
def loginLoop (account password feature : String) (mfa : Option String) :
    ℕ → String → Enrolling LoginOutcome
  | 0, _ => throw (.upstream "EZVIZ login redirected too many times")
  | attempts + 1, region => do
    match ← loginOnce world account password region feature mfa with
    | .done outcome => return outcome
    | .redirect next =>
      let region ← liftExcept (normalizeRegion next)
      loginLoop account password feature mfa attempts region

/-- `login`. -/
def login (account password region feature : String) (mfa : Option String) :
    Enrolling LoginOutcome := do
  let region ← liftExcept (normalizeRegion region)
  loginLoop world account password feature mfa (maxRegionRedirects + 1) region

/-- `send_mfa`. -/
def sendMfa (account region feature : String) : Enrolling Unit := do
  let host ← liftExcept (normalizeRegion region)
  let response ← send world {
    method := .post
    url := "https://" ++ host ++ "/v3/sms/nologin/checkcode"
    headers := mobileHeaders world feature
    form := [("from", account), ("bizType", "TERMINAL_BIND")] }
  if response.status ≠ 200 then throw .invalidCredentials
  else
    let value ← liftExcept response.body
    if metaCode value = some 200 then return () else throw .invalidCredentials

/-- `service_urls`. -/
def serviceUrls (token : EzvizToken) : Enrolling Value := do
  if !world.isHeader token.sessionId then throw (.upstream "EZVIZ session id is not a header")
  else
    let host ← liftExcept (normalizeRegion token.apiUrl)
    let response ← send world {
      method := .get
      url := "https://" ++ host ++ "/v3/configurations/system/info"
      headers := mobileHeaders world (token.featureCode.getD "") ++
        [("sessionid", token.sessionId)] }
    let value ← liftExcept response.body
    match value.get "systemConfigInfo" with
    | some info => return info
    | none => throw (.upstream "system info omitted service URLs")

/-- `persist`. -/
def persist (token : EzvizToken) (tokenPath : String) : Enrolling Unit := do
  let urls ← serviceUrls world token
  (perform (.store tokenPath { token with serviceUrls := some (world.text urls) }) : Program
    Event Unit)
  let log ← (history : Program Event _)
  liftExcept (world.stored log)

/-- `begin`, with the feature code that it has made. -/
def begin_ (account password region tokenPath feature : String) : Enrolling EnrollmentState := do
  liftExcept world.build
  match ← login world account password region feature none with
  | .token token => do
    persist world token tokenPath
    return .complete
  | .mfaRequired actualRegion => do
    sendMfa world account actualRegion feature
    return .mfa ⟨account, password, actualRegion, feature, tokenPath⟩

/-- `PendingEnrollment::complete`. -/
def complete (self : PendingEnrollment) (code : String) : Enrolling Unit := do
  liftExcept (validateCode code)
  match ← login world self.account self.password self.region self.feature (some code) with
  | .token token => persist world token self.tokenPath
  | .mfaRequired _ => throw .invalidOtp

/-- `enroll`, with the code that the reader returns. -/
def enroll (account password region tokenPath feature : String)
    (mfaReader : Except BridgeError String) :
    Enrolling Unit := do
  match ← begin_ world account password region tokenPath feature with
  | .complete => return ()
  | .mfa pending => do
    let code ← liftExcept mfaReader
    complete world pending code

/-! ### What they do -/

/-- A request goes to an EZVIZ host, and a token that is written has one. -/
def Stays : Event → Prop
  | .request request => ∃ host, authority request.url = some host ∧ IsEzvizHost host
  | .store _ token => IsEzvizHost token.apiUrl

/-- A request with the password. -/
def asksPassword : Event → Bool
  | .request request => request.form.any fun field => field.1 = "password"
  | .store _ _ => false

variable {world : World}

theorem does_send {request : Request} {host path : String} (hhost : IsEzvizHost host)
    (hurl : request.url = "https://" ++ host ++ path) (hpath : path.toList.head? = some '/') :
    Fallible.Does Stays asksPassword (if asksPassword (.request request) then 1 else 0)
      (fun _ => True)
      (send world request) := by
  have hstays : Stays (.request request) :=
    ⟨host, hurl ▸ authority_of_isEzvizHost hhost hpath, hhost⟩
  refine Fallible.does_bind_left (Fallible.does_perform hstays) fun _ _ => ?_
  refine Fallible.does_bind_left Fallible.does_history fun _ _ => ?_
  exact Fallible.does_liftExcept fun _ _ => trivial

/-- What an attempt ends with has an EZVIZ host in it, if it is not one more redirect. -/
def Attempt.Ezviz : Attempt → Prop
  | .done (.token token) => IsEzvizHost token.apiUrl
  | .done (.mfaRequired region) => IsEzvizHost region
  | .redirect _ => True

theorem does_loginOnce (account password : String) {region : String} (feature : String)
    (mfa : Option String) (h : IsEzvizHost region) :
    Fallible.Does Stays asksPassword 1 Attempt.Ezviz
      (loginOnce world account password region feature mfa) := by
  refine Fallible.does_bind_left (n := 1) (does_send h rfl (by decide)) fun response _ => ?_
  split_ifs
  · exact Fallible.does_throw _
  refine Fallible.does_liftExcept_bind fun value _ => ?_
  split_ifs
  · -- the token has the host that the answer has been normalized to
    refine Fallible.does_liftExcept_bind fun sessionId _ => ?_
    refine Fallible.does_liftExcept_bind fun rfSessionId _ => ?_
    refine Fallible.does_liftExcept_bind fun username _ => ?_
    refine Fallible.does_liftExcept_bind fun apiDomain _ => ?_
    refine Fallible.does_liftExcept_bind fun apiUrl hapiUrl => ?_
    exact Fallible.does_pure (isEzvizHost_of_normalizeRegion hapiUrl)
  · exact Fallible.does_pure h
  · refine Fallible.does_liftExcept_bind fun next _ => ?_
    exact Fallible.does_pure trivial
  · exact Fallible.does_throw _

/-- What a login ends with. -/
def LoginOutcome.Ezviz (outcome : LoginOutcome) : Prop := (Attempt.done outcome).Ezviz

theorem does_loginLoop (account password feature : String) (mfa : Option String) (attempts : ℕ)
    {region : String} (h : IsEzvizHost region) :
    Fallible.Does Stays asksPassword attempts LoginOutcome.Ezviz
      (loginLoop world account password feature mfa attempts region) := by
  induction attempts generalizing region with
  | zero => exact Fallible.does_throw _
  | succ attempts ih =>
    have hstep : Fallible.Does Stays asksPassword (1 + attempts) LoginOutcome.Ezviz
        (loginLoop world account password feature mfa (attempts + 1) region) := by
      refine Fallible.does_bind (does_loginOnce account password feature mfa h)
        fun attempt hattempt => ?_
      cases attempt with
      | done outcome =>
        have hdone : outcome.Ezviz := hattempt
        exact (Fallible.does_pure hdone).mono (Nat.zero_le _) fun _ h => h
      | redirect next =>
        -- one attempt less is left, and the next region has been normalized again
        refine Fallible.does_liftExcept_bind fun host hhost => ?_
        exact ih (isEzvizHost_of_normalizeRegion hhost)
    exact hstep.mono (Nat.add_comm 1 attempts).le fun _ h => h

/-- **A login makes at most three requests with the password.** -/
theorem does_login (account password region feature : String) (mfa : Option String) :
    Fallible.Does Stays asksPassword 3 LoginOutcome.Ezviz
      (login world account password region feature mfa) := by
  refine Fallible.does_liftExcept_bind fun host hhost => ?_
  exact does_loginLoop account password feature mfa 3 (isEzvizHost_of_normalizeRegion hhost)

example : ((login {
    build := .ok ()
    answer := fun _ => .ok ⟨200, .ok (.object [("meta", .object [("code", .int 1100)]),
      ("loginArea", .object [("apiDomain", .string "eu")])])⟩
    stored := fun _ => .ok ()
    digest := id
    isHeader := fun _ => true
    text := fun _ => "" } "account" "password" "ru" "feature" none).run.run []).2.length = 3 := by
  decide +kernel

theorem does_sendMfa (account region feature : String) :
    Fallible.Does Stays asksPassword 0 (fun _ => True) (sendMfa world account region feature) := by
  refine Fallible.does_liftExcept_bind fun host hhost => ?_
  refine Fallible.does_bind_left (n := 0)
    (does_send (isEzvizHost_of_normalizeRegion hhost) rfl (by decide)) fun response _ => ?_
  split_ifs
  · exact Fallible.does_throw _
  refine Fallible.does_liftExcept_bind fun value _ => ?_
  split_ifs
  · exact Fallible.does_pure trivial
  · exact Fallible.does_throw _

theorem does_serviceUrls (token : EzvizToken) :
    Fallible.Does Stays asksPassword 0 (fun _ => True) (serviceUrls world token) := by
  unfold serviceUrls
  split_ifs
  · exact Fallible.does_throw _
  refine Fallible.does_liftExcept_bind fun host hhost => ?_
  refine Fallible.does_bind_left (n := 0)
    (does_send (isEzvizHost_of_normalizeRegion hhost) rfl (by decide)) fun response _ => ?_
  refine Fallible.does_liftExcept_bind fun value _ => ?_
  cases value.get "systemConfigInfo" with
  | some info => exact Fallible.does_pure trivial
  | none => exact Fallible.does_throw _

theorem does_persist {token : EzvizToken} (h : IsEzvizHost token.apiUrl) (tokenPath : String) :
    Fallible.Does Stays asksPassword 0 (fun _ => True) (persist world token tokenPath) := by
  refine Fallible.does_bind_left (does_serviceUrls token) fun urls _ => ?_
  -- the service URLs change nothing of the host
  have hstays : Stays (.store tokenPath { token with serviceUrls := some (world.text urls) }) := h
  refine Fallible.does_bind_left (n := 0) (Fallible.does_perform hstays) fun _ _ => ?_
  refine Fallible.does_bind_left Fallible.does_history fun _ _ => ?_
  exact Fallible.does_liftExcept fun _ _ => trivial

theorem does_begin (account password region tokenPath feature : String) :
    Fallible.Does Stays asksPassword 3 (fun _ => True)
      (begin_ world account password region tokenPath feature) := by
  refine Fallible.does_liftExcept_bind fun _ _ => ?_
  refine Fallible.does_bind_left (does_login account password region feature none)
    fun outcome houtcome => ?_
  cases outcome with
  | token token =>
    refine Fallible.does_bind_left (does_persist houtcome tokenPath) fun _ _ => ?_
    exact Fallible.does_pure trivial
  | mfaRequired actualRegion =>
    refine Fallible.does_bind_left (does_sendMfa account actualRegion feature) fun _ _ => ?_
    exact Fallible.does_pure trivial

theorem does_complete (pending : PendingEnrollment) (code : String) :
    Fallible.Does Stays asksPassword 3 (fun _ => True) (complete world pending code) := by
  refine Fallible.does_liftExcept_bind fun _ _ => ?_
  refine Fallible.does_bind_left
    (does_login pending.account pending.password pending.region pending.feature (some code))
    fun outcome houtcome => ?_
  cases outcome with
  | token token => exact does_persist houtcome pending.tokenPath
  | mfaRequired _ => exact Fallible.does_throw _

theorem does_enroll (account password region tokenPath feature : String)
    (mfaReader : Except BridgeError String) :
    Fallible.Does Stays asksPassword 6 (fun _ => True)
      (enroll world account password region tokenPath feature mfaReader) := by
  refine Fallible.does_bind (n := 3) (m := 3) (does_begin account password region tokenPath feature)
    fun state _ => ?_
  cases state with
  | complete => exact (Fallible.does_pure trivial).mono (Nat.zero_le 3) fun _ h => h
  | mfa pending =>
    refine Fallible.does_liftExcept_bind fun code _ => ?_
    exact does_complete pending code

/-- **Credentials go only to EZVIZ hosts**: whatever is answered, all requests of `begin` and of
`complete` go to one, the token that is written has one, and a login asks with the password at most
three times. What has been accepted as a region is accepted as it is. -/
theorem credentials_stay (world : World) :
    (∀ account password region tokenPath feature,
      Fallible.Does Stays asksPassword 3 (fun _ => True)
        (begin_ world account password region tokenPath feature)) ∧
    (∀ pending code, Fallible.Does Stays asksPassword 3 (fun _ => True)
      (complete world pending code)) ∧
    (∀ account password region tokenPath feature mfaReader,
      Fallible.Does Stays asksPassword 6 (fun _ => True)
        (enroll world account password region tokenPath feature mfaReader)) ∧
    (∀ account password region feature mfa,
      Fallible.Does Stays asksPassword 3 LoginOutcome.Ezviz
        (login world account password region feature mfa)) ∧
    ∀ region, (normalizeRegion region).bind normalizeRegion = normalizeRegion region := by
  exact ⟨does_begin, does_complete, does_enroll, does_login, normalizeRegion_idempotent⟩

end EnrollApi

end EzvizBridge
