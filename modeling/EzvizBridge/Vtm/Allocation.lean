import EzvizBridge.Controls.Model
import EzvizBridge.Lib.Exclusive
import EzvizBridge.Session.Model
import EzvizBridge.Vtm.Address

/-!
# The allocation of a stream

`cloud_url` (`transport/client_stream.rs`) asks EZVIZ for the resources of the account until it
finds the camera, for a token, and for a server, and makes an address of them. A token is used up by
the next allocation, so the allocations are behind one lock.

An `Answer` is what a request comes to: the status and the body, or the error in their place. What a
call has of the session, and the clock, are in its `Input`.
-/

namespace EzvizBridge

namespace Vtm

open Asking (Fallible Keeps)
open Controls (Value)
open Session (isSuccess requiredString)

/-! ### Reading the answers -/

def asU64 : Value → Option ℕ
  | .int value => if 0 ≤ value ∧ value < 2 ^ 64 then some value.toNat else none
  | _ => none

/-- `str::parse::<u16>`. -/
def parseU16 (text : List Char) : Option UInt16 :=
  let digits :=
    match text with
    | '+' :: digits => digits
    | digits => digits
  if digits = [] ∨ ¬digits.all Char.isDigit then none
  else
    let value := digits.foldl (fun value digit => 10 * value + (digit.toNat - '0'.toNat)) 0
    if value < 65536 then some (.ofNat value) else none

/-- `value_u16`. -/
def valueU16 (value : Option Value) : Except BridgeError UInt16 :=
  match value.bind fun value =>
    ((asU64 value).map fun number => toString number).or value.asStr with
  | none => .error (.upstream "VTM server port is missing")
  | some raw =>
    match parseU16 raw.toList with
    | some port => .ok port
    | none => .error (.upstream "VTM server port is invalid")

/-- `resource_channel`. -/
def resourceChannel (resource : Value) : Option UInt16 :=
  ["channelNo", "localIndex", "channel"].findSome? fun key =>
    (resource.get key).bind fun value =>
      ((asU64 value).bind fun number => if number < 65536 then some (.ofNat number) else none).or
        (value.asStr.bind fun text => parseU16 text.toList)

/-- The resource is of this camera. -/
def isSerial (serial : String) (resource : Value) : Bool :=
  (resource.get "deviceSerial").bind Value.asStr = some serial

/-- `find_resource`. -/
def findResource (page : Value) (serial : String) (channel : UInt16) : Except BridgeError Value :=
  match (page.get "resourceInfos").bind Value.asArray with
  | none => .error (.upstream "VTM resource list is missing")
  | some resources =>
    let matching := (resources.filter (isSerial serial)).find? fun item =>
      resourceChannel item = some channel
    let legacy :=
      if channel = 1 then resources.find? fun item => isSerial serial item ∧
        resourceChannel item = none
      else none
    match matching.or legacy with
    | some resource => .ok resource
    | none => .error (.upstream "camera channel was not found")

def successCode (value : Option Value) : Bool :=
  value.any fun value => value.asI64 = some 0 ∨ value.asStr = some "0"

/-! ### The requests -/

/-- What one allocation asks. -/
inductive Request
  /-- A page of the resources. -/
  | resources (offset : ℕ)
  | vtduToken (address sessionId sign : String)
  | server (serial : String) (channel : UInt16)
  deriving DecidableEq

abbrev Answer := Except BridgeError (ℕ × Value)

/-- A call of `cloud_url`. -/
structure Input where
  serial : String
  channel : UInt16
  substream : Bool
  interval : Option (String × String)
  /-- The session of the token: `auth_address`, the session id, and `jwt_sign` of it. -/
  session : Except BridgeError (String × String × String)
  timestampMs : ℤ

/-- `api_json`. -/
def apiJson (answer : Answer) : Except BridgeError Value := do
  let (status, value) ← answer
  if ¬isSuccess status then throw (.upstream ("EZVIZ API returned HTTP " ++ toString status))
  return value

/-- The end of `vtdu_token`. -/
def readToken (answer : Answer) : Except BridgeError String := do
  let (status, value) ← answer
  if ¬isSuccess status ∨ ¬successCode (value.get "retcode") then
    throw (.upstream "VTDU token request failed")
  match (((value.get "tokens").bind Value.asArray).bind List.head?).bind Value.asStr with
  | some token => return token
  | none => throw (.upstream "VTDU response omitted its token")

def pageSize : ℕ := 50

def maxPages : ℕ := 40

def saturatingAdd (a b : ℕ) : ℕ := min (a + b) (2 ^ 64 - 1)

/-- How many resources are on a page. -/
def resourceCount (page : Value) :
    ℕ := (((page.get "resourceInfos").bind Value.asArray).map List.length).getD 0

/-- `has_next`, and there is something on this page. -/
def goesOn (page : Value) : Bool :=
  resourceCount page ≠ 0 ∧
    (((page.get "page").bind fun value => value.get "hasNext").bind Value.asBool).getD
      (resourceCount page = pageSize)

/-- The error of a camera that is on no page. -/
def notFound : BridgeError :=
  .upstream "camera channel was not found in the complete VTM resource list"

/-- `resource_page`, with so many pages left. -/
def resourcePage (serial : String) (channel : UInt16) :
    ℕ → ℕ → Fallible Request Answer BridgeError Value
  | 0, _ => throw notFound
  | pages + 1, offset => do
    let page ← Fallible.ask (.resources offset) apiJson
    if (findResource page serial channel).isOk then return page
    if ¬goesOn page then throw notFound
    resourcePage serial channel pages (saturatingAdd offset (resourceCount page))

/-- The server that the answer names, or else the page. -/
def serverOf (page : Value) (resourceId : String) (answer : Value) : Except BridgeError Value :=
  match (answer.get "streamServerConfig").or
    ((page.get "VTM").bind fun value => value.get resourceId) with
  | some server => .ok server
  | none => .error (.upstream "VTM server metadata is missing")

/-- The host of the reply, which must be there. -/
def hostOf (server : Value) : Except BridgeError String :=
  match ["externalIp", "domain", "internalIp"].findSome? fun key =>
    (server.get key).bind Value.asStr with
  | some host => .ok host
  | none => .error (.upstream "VTM server host is missing")

/-- The address of a stream, or of a playback. -/
def streamUrl (crate : UrlCrate) (interval : Option (String × String))
    (request : VtmUrlRequest) : String :=
  match interval with
  | none => buildVtmUrl crate request
  | some (begin_, end_) => buildVtmPlaybackUrl crate request begin_ end_

/-- `cloud_url`, while it has the lock. -/
def cloudUrl (crate : UrlCrate) (input : Input) : Fallible Request Answer BridgeError String := do
  let page ← resourcePage input.serial input.channel maxPages 0
  let resource ← liftExcept (findResource page input.serial input.channel)
  let resourceId ← liftExcept
      (requiredString ((resource.get "resourceId").bind Value.asStr) "resourceId")
  let bizUrl := ((resource.get "streamBizUrl").bind Value.asStr).getD ""
  let (address, sessionId, sign) ← liftExcept input.session
  let vtdu ← Fallible.ask (.vtduToken address sessionId sign) readToken
  let answer ← Fallible.ask (.server input.serial input.channel) apiJson
  let server ← liftExcept (serverOf page resourceId answer)
  let host ← liftExcept (hostOf server)
  let port ← liftExcept (valueU16 (server.get "port"))
  return streamUrl crate input.interval
    { host, port, bizUrl, serial := input.serial, channel := input.channel,
      substream := input.substream, token := vtdu, timestampMs := input.timestampMs }

/-! ### What an allocation asks -/

/-- Pages without the camera, from the first one on: each is asked for behind the resources of the
pages before. -/
inductive Paged (input : Input) : List (Request × Answer) → ℕ → Prop
  | start : Paged input [] 0
  | next {told : List (Request × Answer)} {offset : ℕ} {answer : Answer} {page : Value}
    (h : Paged input told offset) (hanswer : apiJson answer = .ok page)
    (hmissing : (findResource page input.serial input.channel).isOk = false)
    (hmore : goesOn page = true) :
    Paged input (told ++ [(.resources offset, answer)]) (saturatingAdd offset (resourceCount page))

/-- At most 40 pages, and the camera is on the last one. -/
def Found (input : Input) (told : List (Request × Answer)) (page : Value) : Prop :=
  ∃ earlier offset answer, told = earlier ++ [(.resources offset, answer)] ∧
    Paged input earlier offset ∧
    earlier.length < maxPages ∧ apiJson answer = .ok page ∧
    (findResource page input.serial input.channel).isOk = true

/-- A token for the camera that was found. -/
def Granted (input : Input) (told : List (Request × Answer)) (token : String) : Prop :=
  ∃ earlier page address sessionId sign answer, Found input earlier page ∧
    input.session = .ok (address, sessionId, sign) ∧
    told = earlier ++ [(.vtduToken address sessionId sign, answer)] ∧ readToken answer = .ok token

/-- What a call may ask, in view of what it has asked and been told. -/
def Allowed (input : Input) (told : List (Request × Answer)) : Request → Prop
  | .resources offset => Paged input told offset ∧ told.length < maxPages
  | .vtduToken address sessionId sign =>
    input.session = .ok (address, sessionId, sign) ∧ ∃ page, Found input told page
  | .server serial channel =>
    serial = input.serial ∧ channel = input.channel ∧ ∃ token, Granted input told token

section Keeping

variable {input : Input} {told : List (Request × Answer)} {offset : ℕ}

end Keeping

/-! ### Allocations at once -/

/-- The calls of `cloud_url`, with `allocation_lock`. -/
abbrev Allocations := Exclusive.State Input Request Answer (Except BridgeError String)

/-- One step of the allocations. -/
def Allocations.step (crate : UrlCrate) :
    Allocations → Exclusive.Event Input Answer → Option Allocations :=
  Exclusive.step fun input => (cloudUrl crate input).run

def sampleToken : Value := .object [("retcode", .int 0), ("tokens", .array [.string "t"])]

/-- A resource of the camera: with its channel, or without any for the first one. -/
def Serves (serial : String) (channel : UInt16) (resource : Value) : Prop :=
  isSerial serial resource = true ∧
    (resourceChannel resource = some channel ∨ channel = 1 ∧ resourceChannel resource = none)

/-- A page of a list of resources, with what else is on it. -/
def pageAt (size : ℕ) (resources : List Value) (others : List (String × Value))
    (offset : ℕ) : Value :=
  .object (("resourceInfos", .array ((resources.drop offset).take size)) ::
    ("page", .object [("hasNext", .bool (offset + size < resources.length))]) :: others)

/-- EZVIZ when it has a list of resources. -/
def listing (size : ℕ) (resources : List Value) (others : List (String × Value))
    (other : Request → Answer) :
    Request → Answer
  | .resources offset => .ok (200, pageAt size resources others offset)
  | request => other request

section Listing

variable {serial : String} {channel : UInt16} {size : ℕ} {resources : List Value}
  {others : List (String × Value)}
  {other : Request → Answer} {page resource : Value}

/-- What is found serves the camera. -/
theorem findResource_ok (hpage : (page.get "resourceInfos").bind Value.asArray = some resources)
    (h : findResource page serial channel = .ok resource) :
    resource ∈ resources ∧ Serves serial channel resource := by
  simp only [findResource, hpage] at h
  split at h
  · next found hfound =>
    obtain rfl := Except.ok.inj h
    -- with the channel, or without one on a device of one channel
    rcases Option.or_eq_some_iff.mp hfound with hmatching | ⟨-, hlegacy⟩
    · have hmem := List.mem_filter.mp (List.mem_of_find?_eq_some hmatching)
      have hchannel : resourceChannel found = some channel := by
        simpa using List.find?_some hmatching
      exact ⟨hmem.1, hmem.2, .inl hchannel⟩
    · split at hlegacy
      · next hone =>
        have hboth : isSerial serial found = true ∧ resourceChannel found = none := by
          simpa using List.find?_some hlegacy
        exact ⟨List.mem_of_find?_eq_some hlegacy, hboth.1, .inr ⟨hone, hboth.2⟩⟩
      · cases hlegacy
  · cases h

/-- Something is found where something serves the camera. -/
theorem findResource_isOk (hpage : (page.get "resourceInfos").bind Value.asArray = some resources) :
    (findResource page serial channel).isOk = true ↔
      ∃ resource ∈ resources, Serves serial channel resource := by
  constructor
  · intro h
    cases hfound : findResource page serial channel with
    | ok resource => exact ⟨resource, findResource_ok hpage hfound⟩
    | error error =>
      rw [hfound] at h
      cases h
  · rintro ⟨resource, hmem, hserial, hchannel⟩
    simp only [findResource, hpage]
    split
    · rfl
    · next hnone =>
      obtain ⟨hmatching, hlegacy⟩ := Option.or_eq_none_iff.mp hnone
      -- neither search would have failed
      rcases hchannel with hchannel | ⟨hone, hnochannel⟩
      · have hnot := List.find?_eq_none.mp hmatching resource (List.mem_filter.mpr ⟨hmem, hserial⟩)
        exact absurd (decide_eq_true hchannel) hnot
      · rw [if_pos hone] at hlegacy
        have hnot := List.find?_eq_none.mp hlegacy resource hmem
        exact absurd (decide_eq_true ⟨hserial, hnochannel⟩) hnot

/-- The resources of a page. -/
theorem resourceInfos_pageAt (size : ℕ) (resources : List Value) (others : List (String × Value))
    (offset : ℕ) :
    ((pageAt size resources others offset).get "resourceInfos").bind Value.asArray =
      some ((resources.drop offset).take size) := rfl

/-- A page goes on as long as there are more resources. -/
theorem goesOn_pageAt (hsize : 0 < size) (offset : ℕ) :
    goesOn (pageAt size resources others offset) = decide (offset + size < resources.length) := by
  have hcount : resourceCount (pageAt size resources others offset) =
      ((resources.drop offset).take size).length := rfl
  have hnext : ((((pageAt size resources others offset).get "page").bind fun value =>
      value.get "hasNext").bind Value.asBool) =
        some (decide (offset + size < resources.length)) := rfl
  rw [goesOn, hnext, Option.getD_some, hcount, List.length_take, List.length_drop]
  -- there is more behind the page, or not
  by_cases hmore : offset + size < resources.length
  · rw [decide_eq_true hmore]
    exact decide_eq_true ⟨by omega, rfl⟩
  · rw [decide_eq_false hmore]
    exact decide_eq_false fun h => Bool.false_ne_true h.2

/-- The lookup from some offset on. -/
theorem answered_resourcePage (serial : String) (channel : UInt16) (others : List (String × Value))
    (other : Request → Answer) (hsize : 0 < size) (hfits : resources.length < 2 ^ 64)
    (pages offset : ℕ) :
    (∃ page resource, (resourcePage serial channel pages offset).run.answered
        (listing size resources others other) = .ok page ∧ findResource page serial channel =
          .ok resource ∧
        resource ∈ (resources.drop offset).take (pages * size) ∧ Serves serial channel resource) ∨
      (resourcePage serial channel pages offset).run.answered
        (listing size resources others other) =
        .error notFound ∧
      ∀ resource ∈ (resources.drop offset).take (pages * size),
        ¬Serves serial channel resource := by
  -- on the pages that are left
  induction pages generalizing offset with
  | zero =>
    refine .inr ⟨rfl, fun resource hresource => ?_⟩
    rw [Nat.zero_mul, List.take_zero] at hresource
    cases hresource
  | succ pages ih =>
    have hasked : (Fallible.ask (.resources offset) apiJson :
        Fallible Request Answer BridgeError Value).run.answered
          (listing size resources others other) =
          .ok (pageAt size resources others offset) := rfl
    -- what may be read is this page and what follows
    have hcut : (resources.drop offset).take ((pages + 1) * size) =
        (resources.drop offset).take size ++
          (resources.drop (offset + size)).take (pages * size) := by
      rw [Nat.succ_mul, Nat.add_comm, List.take_add, List.drop_drop]
    have hisOk : (findResource (pageAt size resources others offset) serial channel).isOk =
        true ↔ _ :=
      findResource_isOk (resourceInfos_pageAt size resources others offset)
    rw [resourcePage, Asking.answered_andThen hasked, hcut]
    -- it is on this page, or the lookup goes on
    by_cases hfound : (findResource (pageAt size resources others offset) serial channel).isOk =
      true
    · rw [if_pos hfound]
      cases hresource : findResource (pageAt size resources others offset) serial channel with
      | ok resource =>
        obtain ⟨hmem, hserves⟩ :=
          findResource_ok (resourceInfos_pageAt size resources others offset) hresource
        exact .inl ⟨_, resource, rfl, hresource, List.mem_append_left _ hmem, hserves⟩
      | error error =>
        rw [hresource] at hfound
        cases hfound
    · have hnone : ∀ resource ∈ (resources.drop offset).take size,
          ¬Serves serial channel resource :=
        fun resource hmem hserves => hfound (hisOk.mpr ⟨resource, hmem, hserves⟩)
      rw [if_neg hfound]
      by_cases hmore : goesOn (pageAt size resources others offset) = true
      · rw [if_neg (not_not.mpr hmore)]
        have hlt : offset + size < resources.length := by
          rw [goesOn_pageAt hsize] at hmore
          exact of_decide_eq_true hmore
        have hoffset : saturatingAdd offset (resourceCount (pageAt size resources others offset)) =
            offset + size := by
          show min (offset + ((resources.drop offset).take size).length) _ = _
          rw [List.length_take, List.length_drop]
          omega
        rw [hoffset]
        rcases ih (offset + size) with ⟨page, resource, hresult, hresource, hmem, hserves⟩ |
          ⟨hresult, hrest⟩
        · exact .inl ⟨page, resource, hresult, hresource, List.mem_append_right _ hmem, hserves⟩
        · exact .inr ⟨hresult, List.forall_mem_append.mpr ⟨hnone, hrest⟩⟩
      · -- the list ends on this page
        rw [if_pos hmore]
        have hend : (resources.drop (offset + size)).take (pages * size) = [] := by
          rw [goesOn_pageAt hsize, decide_eq_true_eq] at hmore
          rw [List.drop_eq_nil_of_le (Nat.le_of_not_lt hmore), List.take_nil]
        refine .inr ⟨rfl, ?_⟩
        rw [hend, List.append_nil]
        exact hnone

/-- **The camera is found if and only if it is on the first forty pages**, however long the pages of
EZVIZ are. -/
theorem camera_found (serial : String) (channel : UInt16) (others : List (String × Value))
    (other : Request → Answer) (hsize : 0 < size) (hfits : resources.length < 2 ^ 64) :
    ((∃ page resource, (resourcePage serial channel maxPages 0).run.answered
        (listing size resources others other) = .ok page ∧ findResource page serial channel =
          .ok resource ∧
        resource ∈ resources ∧ Serves serial channel resource) ↔
      ∃ resource ∈ resources.take (maxPages * size), Serves serial channel resource) ∧
    ((resourcePage serial channel maxPages 0).run.answered (listing size resources others other) =
        .error notFound ↔
      ∀ resource ∈ resources.take (maxPages * size), ¬Serves serial channel resource) := by
  have hlookup := answered_resourcePage serial channel others other hsize hfits maxPages 0
  rw [List.drop_zero] at hlookup
  -- it was found, or it is nowhere
  rcases hlookup with ⟨page, resource, hresult, hresource, hmem, hserves⟩ | ⟨hresult, hnone⟩
  · have hfound := List.mem_of_mem_take hmem
    rw [hresult]
    exact ⟨iff_of_true ⟨page, resource, rfl, hresource, hfound, hserves⟩ ⟨resource, hmem, hserves⟩,
      iff_of_false (fun heq => by cases heq) fun hnone => hnone resource hmem hserves⟩
  · rw [hresult]
    refine ⟨iff_of_false ?_ ?_, iff_of_true rfl hnone⟩
    · rintro ⟨page, resource, hok, -⟩
      cases hok
    · rintro ⟨resource, hmem, hserves⟩
      exact hnone resource hmem hserves

/-- The camera is on the second page. -/
theorem camera_found_sample :
    let camera : Value := .object [("deviceSerial", .string "A1")]
    ∃ page resource, (resourcePage "A1" 1 maxPages 0).run.answered
      (listing 1 [.null, camera] [] fun _ => .error .upstreamUnavailable) = .ok page ∧
        findResource page "A1" 1 = .ok resource := by
  intro camera
  obtain ⟨hfound, -⟩ := @camera_found 1 [.null, camera] "A1" 1 []
    (fun _ => .error .upstreamUnavailable)
    (by decide) (by decide)
  have hcamera : camera ∈ [Value.null, camera].take (maxPages * 1) :=
    List.mem_cons_of_mem _ (List.mem_singleton_self _)
  obtain ⟨page, resource, hresult, hresource, -⟩ :=
    hfound.mpr ⟨camera, hcamera, rfl, .inr ⟨rfl, rfl⟩⟩
  exact ⟨page, resource, hresult, hresource⟩

end Listing

end Vtm

end EzvizBridge
